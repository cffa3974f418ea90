import Tala.Analysis.DominanceFacts

/-!
# `Analysis.ControlDependence` — which branch decides whether a block runs

`analyzeControlDependence` walks from each successor of a branch up the post-dominator tree to the immediate
post-dominator of the branch. Of a block's edges to other blocks it reports exactly the relation of the
definition (`mem_buildEdges`). An edge from a block to itself is skipped together with the successors that
post-dominate the branch, because every block post-dominates itself; the report is the whole relation
exactly for the graphs without such an edge (`controlDependence_exact_iff`).
-/

namespace Tala.Analysis

open Library.Catalog Library.Dominators Dominance ControlFlowGraph

/-- The edge of the controller whose choice decides whether the dependent runs. -/
structure ControlDependenceEdge where
  controller : ControlFlowBlockId
  successor : ControlFlowBlockId
  dependent : ControlFlowBlockId
deriving DecidableEq, Repr

/-- Controllers and dependents of one block. -/
structure ControlDependenceBlockFacts where
  block : ControlFlowBlockId
  controllers : List ControlFlowBlockId
  dependents : List ControlFlowBlockId
deriving DecidableEq, Repr

structure ControlDependenceResult where
  «structure» : DominanceResult
  edges : List ControlDependenceEdge
  facts : List ControlDependenceBlockFacts
  available : Bool
deriving DecidableEq, Repr

namespace ControlDependenceEdge

/-- The tuple that edges are ordered by. -/
def key (edge : ControlDependenceEdge) :
    ControlFlowBlockId ×ₗ ControlFlowBlockId ×ₗ ControlFlowBlockId :=
  toLex (edge.controller, toLex (edge.successor, edge.dependent))

theorem key_injective : Function.Injective key := by
  intro left right h
  cases left
  cases right
  cases h
  rfl

instance : LinearOrder ControlDependenceEdge := LinearOrder.lift' key key_injective

end ControlDependenceEdge

/-! ## Queries -/

namespace DominanceResult

def factsFor (result : DominanceResult) (block : ControlFlowBlockId) : Option DominanceBlockFacts :=
  result.facts.find? fun facts => facts.block == block

def postDominates (result : DominanceResult) (postDominator block : ControlFlowBlockId) : Bool :=
  match result.factsFor block with
  | none => false
  | some facts => result.hasPostDominance && facts.reachable && facts.postDominators.contains postDominator

/-- The immediate post-dominator of a block that has facts. -/
def postParent (result : DominanceResult) (block : ControlFlowBlockId) : Option ControlFlowBlockId :=
  (result.factsFor block).bind DominanceBlockFacts.immediatePostDominator

/-- A block and its post-dominators, up to the one to stop at. -/
def postDominatorChain (result : DominanceResult) (start : ControlFlowBlockId)
    (stop : Option ControlFlowBlockId) : List ControlFlowBlockId :=
  runners result.postParent stop (result.facts.length + 1) [] (some start)

end DominanceResult

/-! ## The analysis -/

namespace ControlDependence

/-- The blocks that one edge of a controller controls. -/
def edgesThrough (dominance : DominanceResult) (controllerFacts : DominanceBlockFacts)
    (successor : ControlFlowBlockId) : List ControlDependenceEdge :=
  -- a post-dominating successor runs whatever the branch chooses
  if dominance.postDominates successor controllerFacts.block then []
  else
    (dominance.postDominatorChain successor controllerFacts.immediatePostDominator).map
      (ControlDependenceEdge.mk controllerFacts.block successor)

def edgesOf (dominance : DominanceResult) (controller : ControlFlowBlockFacts) :
    List ControlDependenceEdge :=
  if !controller.reachable || controller.successors.length < 2 then []
  else
    match dominance.factsFor controller.block with
    | none => []
    | some controllerFacts => controller.successors.flatMap (edgesThrough dominance controllerFacts)

def buildEdges (dominance : DominanceResult) : List ControlDependenceEdge :=
  sortedUnique (dominance.controlFlow.facts.flatMap (edgesOf dominance))

def buildFacts (dominance : DominanceResult) (edges : List ControlDependenceEdge) :
    List ControlDependenceBlockFacts :=
  dominance.controlFlow.facts.map fun block =>
    { block := block.block,
      controllers :=
        sortedUnique ((edges.filter (·.dependent = block.block)).map ControlDependenceEdge.controller),
      dependents :=
        sortedUnique ((edges.filter (·.controller = block.block)).map ControlDependenceEdge.dependent) }

end ControlDependence

open ControlDependence

def analyzeControlDependence (graph : ControlFlowGraph) (steps : Nat) : Option ControlDependenceResult :=
  (analyzeDominance graph steps).map fun dominance =>
    let edges := if dominance.hasPostDominance then buildEdges dominance else []
    ⟨dominance, edges, buildFacts dominance edges, dominance.hasPostDominance⟩

/-! ## The relation -/

namespace ControlFlowGraph

variable {graph : ControlFlowGraph} {controller successor dependent : ControlFlowBlockId}

/-- Every walk from the block to an exit runs through the post-dominator. -/
def PostDominates (graph : ControlFlowGraph) (postDominator block : ControlFlowBlockId) : Prop :=
  Dominates graph.IsExit graph.BackEdge postDominator block

/-- The walk through the successor must run through the dependent, and the controller may avoid it. -/
structure ControlDepends (graph : ControlFlowGraph) (controller successor dependent : ControlFlowBlockId) :
    Prop where
  edge : graph.Edge controller successor
  onSuccessor : graph.PostDominates dependent successor
  notOnController : ¬ StrictlyDominates graph.IsExit graph.BackEdge dependent controller

/-- Every reachable block can reach an exit. -/
def ReachesExits (graph : ControlFlowGraph) : Prop :=
  ∀ id, graph.IsReachable id → IsReached graph.IsExit graph.BackEdge id

/-- A successor other than the controller that something depends on is no post-dominator of it. -/
theorem ControlDepends.not_postDominates (h : graph.ControlDepends controller successor dependent)
    (hexits : graph.ReachesExits) (hne : successor ≠ controller) :
    ¬ graph.PostDominates successor controller := by
  intro hpost
  apply h.notOnController
  refine ⟨?_, h.onSuccessor.trans hpost⟩
  rintro rfl
  exact hne (hpost.antisymm h.onSuccessor (hexits successor (h.edge.1.next h.edge.2)))

/-- The only successor of a block post-dominates it. -/
theorem ControlDepends.two_successors (h : graph.ControlDepends controller successor dependent)
    (hexits : graph.ReachesExits) (hne : successor ≠ controller) :
    2 ≤ (graph.validSuccessors controller).length := by
  by_contra hfew
  apply h.not_postDominates hexits hne
  have hroot : ¬ graph.IsExit controller := fun hexit => hexit.2 successor h.edge.2
  obtain ⟨only, hsingle⟩ : ∃ only, graph.validSuccessors controller = [only] := by
    rw [← List.length_eq_one_iff]
    have := List.length_pos_of_mem h.edge.2
    omega
  have hself : successor = only := by
    have hmem := h.edge.2
    rw [hsingle] at hmem
    exact List.mem_singleton.mp hmem
  apply (dominates_iff hroot).mpr
  right
  intro other hother
  have hmem := hother.2
  rw [hsingle] at hmem
  rw [List.mem_singleton.mp hmem, hself]
  exact Dominates.refl _ _ _

/-- A block that branches to itself depends on that edge. -/
theorem controlDepends_self (h : graph.Edge controller controller) :
    graph.ControlDepends controller controller controller :=
  ⟨h, Dominates.refl _ _ _, fun hstrict => hstrict.1 rfl⟩

/-- The controllers of a block are the blocks in its post-dominance frontier. -/
theorem exists_controlDepends_iff : (∃ successor, graph.ControlDepends controller successor dependent) ↔
    InFrontier graph.IsExit graph.BackEdge dependent controller := by
  constructor
  · rintro ⟨successor, hedge, hdominates, hnot⟩
    exact ⟨⟨successor, hedge, hdominates⟩, hnot⟩
  · rintro ⟨⟨successor, hedge, hdominates⟩, hnot⟩
    exact ⟨successor, hedge, hdominates, hnot⟩

end ControlFlowGraph

/-! ## What is reported -/

section Report

open ControlFlowGraph Library.Search

variable {graph : ControlFlowGraph} {dominance : DominanceResult} {forward post : DominanceRelation}
  {a id controller successor dependent : ControlFlowBlockId}

section Made

variable (h : MadeFrom graph dominance forward (some post))

include h

theorem MadeFrom.factsFor :
    dominance.factsFor id =
      if id ∈ graph.blockIds then some (buildBlockFacts forward (some post) (graph.blockFacts id))
      else none := by
  have hkey : ∀ id, (buildBlockFacts forward (some post) (graph.blockFacts id)).block = id := by
    intro id
    unfold buildBlockFacts
    split <;> rfl
  have hfacts : dominance.facts
      = graph.blockIds.map fun id => buildBlockFacts forward (some post) (graph.blockFacts id) := by
    rw [h.result_eq]
    exact List.map_map
  rw [DominanceResult.factsFor, hfacts]
  exact find?_map_of_key DominanceBlockFacts.block _ hkey graph.blockIds id

theorem MadeFrom.factsFor_reachable (hreach : graph.IsReachable id) :
    dominance.factsFor id = some ⟨id, true, forward.parents id, post.parents id,
      toVector (forward.dominators id), toVector (post.dominators id),
      toVector (forward.frontiers id), toVector (post.frontiers id)⟩ := by
  rw [h.factsFor, if_pos hreach.mem_blockIds, buildBlockFacts, if_pos (reachable_blockFacts.mpr hreach)]
  rfl

theorem MadeFrom.postDominates_iff (hreach : graph.IsReachable id) :
    dominance.postDominates a id = true ↔ graph.PostDominates a id := by
  have hpost : dominance.hasPostDominance = true := by
    rw [h.result_eq]
    rfl
  rw [DominanceResult.postDominates, h.factsFor_reachable hreach]
  show (dominance.hasPostDominance && true && (toVector (post.dominators id)).contains a) = true ↔ _
  rw [hpost, Bool.true_and, Bool.true_and, List.contains_iff_mem, mem_toVector]
  exact (h.post_exact post rfl).dominators id (mem_reachableIds.mpr hreach) a

theorem MadeFrom.postParent_eq (hreach : graph.IsReachable id) : dominance.postParent id = post.parents id := by
  rw [DominanceResult.postParent, h.factsFor_reachable hreach]
  rfl

theorem MadeFrom.exactSets :
    ExactSets (reachableIds (analyzeControlFlow graph)) (findExits (analyzeControlFlow graph))
      (reachableEdges (analyzeControlFlow graph) false) post.dominators := by
  intro node hnode b
  rw [(h.post_exact post rfl).dominators node hnode, backward_roots, backward_edge]

/-- The parents of the relation are those that the walk up needs. -/
theorem MadeFrom.isParent (hexits : graph.ReachesExits) (hreach : graph.IsReachable id) :
    IsParent graph.IsExit graph.BackEdge (post.parents id) id := by
  have hexact := h.post_exact post rfl
  have hid := mem_reachableIds.mpr hreach
  have hsets := h.exactSets
  have hspec := immediateParent_spec (backward_direction hexits) hsets hid
  rw [backward_roots, backward_edge] at hspec
  cases hparent : post.parents id with
  | some parent => exact Or.inr ⟨parent, rfl, (hexact.parents id hid parent).mp hparent⟩
  | none =>
      rcases hspec with ⟨_, hno⟩ | ⟨parent, _, himmediate⟩
      · exact Or.inl ⟨rfl, hno⟩
      · rw [(hexact.parents id hid parent).mpr himmediate] at hparent
        cases hparent

theorem MadeFrom.mem_postDominatorChain (hexits : graph.ReachesExits) (hedge : graph.Edge controller successor) :
    dependent ∈ dominance.postDominatorChain successor (post.parents controller) ↔
      graph.PostDominates dependent successor ∧
        ¬ StrictlyDominates graph.IsExit graph.BackEdge dependent controller := by
  have hexact := h.post_exact post rfl
  have hdirection := backward_direction hexits
  have hsets := h.exactSets
  have hsuccessor := hedge.1.next hedge.2
  have hparents : ∀ node ∈ reachableIds (analyzeControlFlow graph),
      IsParent graph.IsExit graph.BackEdge (dominance.postParent node) node := by
    intro node hnode
    have hreach := mem_reachableIds.mp hnode
    rw [h.postParent_eq hreach]
    exact h.isParent hexits hreach
  rw [← backward_roots, ← backward_edge] at hparents
  have hstop := h.isParent hexits hedge.1
  rw [← backward_roots, ← backward_edge] at hstop
  have hmem := @mem_runners _ _ _ _ dependent hdirection hsets dominance.postParent hparents controller
    (post.parents controller) hstop (dominance.facts.length + 1) [] successor (mem_reachableIds.mpr hsuccessor)
  rw [backward_roots, backward_edge] at hmem
  apply hmem
  · -- the immediate post-dominator of the branch post-dominates each of its successors
    intro parent hparent
    have himmediate := (hexact.parents controller (mem_reachableIds.mpr hedge.1) parent).mp hparent
    have hroot : ¬ graph.IsExit controller := fun hexit => hexit.2 successor hedge.2
    exact ((dominates_iff hroot).mp himmediate.1.2).resolve_left himmediate.1.1 successor hedge
  · intro v hv
    cases hv
  · have hsub : post.dominators successor ⊆ graph.blockIds.toFinset := by
      intro b hb
      have hdominates := (hexact.dominators successor (mem_reachableIds.mpr hsuccessor) b).mp hb
      obtain ⟨_, hwalk⟩ := hdominates.isReached (hexits successor hsuccessor)
      have hreach : graph.IsReachable b := by
        cases hwalk with
        | root hexit => exact hexit.1
        | step _ hback => exact hback.1
      exact List.mem_toFinset.mpr hreach.mem_blockIds
    have hlength : dominance.facts.length = graph.blockIds.length := by
      rw [h.result_eq]
      show ((graph.blockIds.map graph.blockFacts).map _).length = _
      rw [List.length_map, List.length_map]
    have hcard := Finset.card_le_card hsub
    have hdedup := List.toFinset_card_le graph.blockIds
    omega

/-- **The reported edges are those of the definition**, apart from a block's edge to itself. -/
theorem MadeFrom.mem_buildEdges (hexits : graph.ReachesExits) :
    ⟨controller, successor, dependent⟩ ∈ buildEdges dominance ↔
      graph.ControlDepends controller successor dependent ∧ successor ≠ controller := by
  have hflow : dominance.controlFlow = analyzeControlFlow graph := by rw [h.result_eq]; rfl
  have hlength : ∀ id, (graph.blockFacts id).successors.length = (graph.validSuccessors id).length :=
    fun id => List.length_insertionSort _ _
  have hof : ∀ id, ⟨controller, successor, dependent⟩ ∈ edgesOf dominance (graph.blockFacts id) ↔
      id = controller ∧ graph.IsReachable id ∧ 2 ≤ (graph.validSuccessors id).length ∧
        successor ∈ graph.validSuccessors id ∧ ¬ graph.PostDominates successor id ∧
          dependent ∈ dominance.postDominatorChain successor (post.parents id) := by
    intro id
    unfold edgesOf
    by_cases hreach : graph.IsReachable id
    · have hreachable := reachable_blockFacts.mpr hreach
      by_cases htwo : 2 ≤ (graph.validSuccessors id).length
      · rw [hreachable, hlength, if_neg (by simp; omega)]
        rw [show (graph.blockFacts id).block = id from rfl, h.factsFor_reachable hreach]
        simp only [List.mem_flatMap, edgesThrough]
        constructor
        · rintro ⟨target, htarget, hmem⟩
          split at hmem
          · cases hmem
          · next hnot =>
              obtain ⟨b, hb, heq⟩ := List.mem_map.mp hmem
              cases heq
              rw [h.postDominates_iff hreach] at hnot
              exact ⟨rfl, hreach, htwo, mem_successors_blockFacts.mp htarget, hnot, hb⟩
        · rintro ⟨rfl, _, _, htarget, hnot, hb⟩
          refine ⟨successor, mem_successors_blockFacts.mpr htarget, ?_⟩
          rw [if_neg (by rwa [h.postDominates_iff hreach])]
          exact List.mem_map.mpr ⟨dependent, hb, rfl⟩
      · rw [hreachable, hlength, if_pos (by simp; omega)]
        constructor
        · intro hmem
          cases hmem
        · rintro ⟨_, _, htwo', _⟩
          exact absurd htwo' htwo
    · have hreachable : (graph.blockFacts id).reachable = false := by
        rw [← Bool.not_eq_true, reachable_blockFacts]
        exact hreach
      rw [hreachable]
      constructor
      · intro hmem
        cases hmem
      · rintro ⟨_, hreach', _⟩
        exact absurd hreach' hreach
  rw [buildEdges, mem_sortedUnique, List.mem_flatMap, hflow]
  constructor
  · rintro ⟨flowFacts, hmem, hin⟩
    obtain ⟨id, _, rfl⟩ := List.mem_map.mp hmem
    obtain ⟨rfl, hreach, _, hsuccessor, hnot, hchain⟩ := (hof id).mp hin
    have hedge : graph.Edge id successor := ⟨hreach, hsuccessor⟩
    obtain ⟨hpost, hstrict⟩ := (h.mem_postDominatorChain hexits hedge).mp hchain
    refine ⟨⟨hedge, hpost, hstrict⟩, ?_⟩
    rintro rfl
    exact hnot (Dominates.refl _ _ _)
  · rintro ⟨hdepends, hne⟩
    refine ⟨_, List.mem_map_of_mem hdepends.edge.1.mem_blockIds, (hof controller).mpr ⟨rfl, ?_⟩⟩
    refine ⟨hdepends.edge.1, hdepends.two_successors hexits hne, hdepends.edge.2,
      hdepends.not_postDominates hexits hne, ?_⟩
    exact (h.mem_postDominatorChain hexits hdepends.edge).mpr ⟨hdepends.onSuccessor, hdepends.notOnController⟩

end Made

end Report

/-! ## The answer -/

section Answer

open ControlFlowGraph

/-- The edges are the relation, and the dependents of a block those that have it in their frontier. -/
structure ExactDependence (graph : ControlFlowGraph) (result : ControlDependenceResult) : Prop where
  edges : ∀ controller successor dependent,
    ⟨controller, successor, dependent⟩ ∈ result.edges ↔ graph.ControlDepends controller successor dependent
  dependents : ∀ facts ∈ result.facts, ∀ dependent, dependent ∈ facts.dependents ↔
    ∃ other ∈ result.structure.facts, other.block = dependent ∧ facts.block ∈ other.postDominanceFrontier

/-- The result of a dominance result. -/
def dependenceOf (dominance : DominanceResult) : ControlDependenceResult :=
  let edges := if dominance.hasPostDominance then buildEdges dominance else []
  ⟨dominance, edges, buildFacts dominance edges, dominance.hasPostDominance⟩

variable {dominance : DominanceResult} {graph : ControlFlowGraph}

theorem mem_dependents {edges : List ControlDependenceEdge}
    {facts : ControlDependenceBlockFacts} (h : facts ∈ buildFacts dominance edges)
    {dependent : ControlFlowBlockId} :
    dependent ∈ facts.dependents ↔ ∃ successor, ⟨facts.block, successor, dependent⟩ ∈ edges := by
  obtain ⟨block, _, rfl⟩ := List.mem_map.mp h
  show dependent ∈ sortedUnique _ ↔ _
  rw [mem_sortedUnique, List.mem_map]
  constructor
  · rintro ⟨edge, hedge, rfl⟩
    obtain ⟨hmem, hcontroller⟩ := List.mem_filter.mp hedge
    refine ⟨edge.successor, ?_⟩
    show (⟨block.block, _, _⟩ : ControlDependenceEdge) ∈ edges
    rw [← of_decide_eq_true hcontroller]
    exact hmem
  · rintro ⟨successor, hmem⟩
    exact ⟨_, List.mem_filter.mpr ⟨hmem, decide_eq_true rfl⟩, rfl⟩

/-- Nothing depends on anything where nothing is reachable. -/
theorem analyzeControlDependence_unreachable (hentry : graph.entry ∉ graph.blockIds) :
    ∃ result, (∀ steps, analyzeControlDependence graph steps = some result) ∧
      ExactDependence graph result ∧ ∀ block, ¬ graph.Edge block block := by
  have hnever : ∀ id, ¬ graph.IsReachable id := fun id hreach => hentry hreach.1
  have hnodes : reachableIds (analyzeControlFlow graph) = ∅ := by
    ext id
    simp [mem_reachableIds, hnever id]
  refine ⟨dependenceOf ⟨analyzeControlFlow graph, (analyzeControlFlow graph).facts.map fun facts =>
    ⟨facts.block, false, none, none, [], [], [], []⟩, [], false⟩, ?_, ⟨?_, ?_⟩, ?_⟩
  · intro steps
    unfold analyzeControlDependence analyzeDominance
    dsimp only
    rw [if_pos hnodes]
    rfl
  · intro controller successor dependent
    constructor
    · intro hmem
      cases hmem
    · intro hdepends
      exact absurd hdepends.edge.1 (hnever _)
  · intro facts hfacts dependent
    rw [mem_dependents hfacts]
    constructor
    · rintro ⟨successor, hmem⟩
      cases hmem
    · rintro ⟨other, hother, _, hfrontier⟩
      obtain ⟨_, _, rfl⟩ := List.mem_map.mp hother
      cases hfrontier
  · intro block hedge
    exact hnever block hedge.1

/-- The dependents are as the frontiers have them, where no block branches to itself. -/
theorem MadeFrom.exactDependence_iff
    {forward post : DominanceRelation} (h : MadeFrom graph dominance forward (some post))
    (hexits : graph.ReachesExits) :
    ExactDependence graph (dependenceOf dominance) ↔ ∀ block, ¬ graph.Edge block block := by
  have hpost : dominance.hasPostDominance = true := by rw [h.result_eq]; rfl
  have hedges : (dependenceOf dominance).edges = buildEdges dominance := by
    show (if dominance.hasPostDominance = true then _ else _) = _
    rw [if_pos hpost]
  constructor
  · intro hexact block hloop
    have hmem := (hexact.edges block block block).mpr (controlDepends_self hloop)
    rw [hedges] at hmem
    exact ((h.mem_buildEdges hexits).mp hmem).2 rfl
  · intro hloops
    have hmem : ∀ controller successor dependent,
        ⟨controller, successor, dependent⟩ ∈ (dependenceOf dominance).edges ↔
          graph.ControlDepends controller successor dependent := by
      intro controller successor dependent
      rw [hedges, h.mem_buildEdges hexits]
      constructor
      · exact fun hboth => hboth.1
      · intro hdepends
        refine ⟨hdepends, ?_⟩
        rintro rfl
        exact hloops _ hdepends.edge
    refine ⟨hmem, ?_⟩
    intro facts hfacts dependent
    rw [mem_dependents hfacts]
    show (∃ successor, _ ∈ (dependenceOf dominance).edges) ↔ _
    rw [exists_congr fun successor => hmem facts.block successor dependent, exists_controlDepends_iff]
    constructor
    · intro hfrontier
      obtain ⟨source, hedge, hdominates⟩ := hfrontier.1
      obtain ⟨_, hwalk⟩ := hdominates.isReached (hexits source (hedge.1.next hedge.2))
      have hreach : graph.IsReachable dependent := by
        cases hwalk with
        | root hexit => exact hexit.1
        | step _ hback => exact hback.1
      have hfacts' := h.factsFor_reachable hreach
      have hother := List.mem_of_find?_eq_some hfacts'
      refine ⟨_, hother, rfl, ?_⟩
      exact ((h.postDominanceExact hpost hother rfl).frontier _).mpr hfrontier
    · rintro ⟨other, hother, rfl, hfrontier⟩
      have hreachable : other.reachable = true := by
        by_contra hnot
        rw [show (dependenceOf dominance).structure = dominance from rfl, h.result_eq] at hother
        obtain ⟨id, _, rfl⟩ := mem_resultOf_facts hother
        unfold buildBlockFacts at hnot hfrontier
        split at hnot
        · exact hnot rfl
        · next hunreachable =>
            rw [if_neg hunreachable] at hfrontier
            cases hfrontier
      exact ((h.postDominanceExact hpost hother hreachable).frontier _).mp hfrontier

/-- **Control dependence is the relation of the definition exactly if no reachable block branches to itself.**
Where every reachable block can reach an exit, the analysis has one answer; its edges are those along which a
dependent post-dominates the successor and does not strictly post-dominate the controller, and the dependents
of a block are the blocks that have it in their post-dominance frontier, if and only if there is no such
block. -/
theorem controlDependence_exact_iff (graph : ControlFlowGraph) (hexits : graph.ReachesExits) :
    ∃ result, (∃ enough, ∀ steps ≥ enough, analyzeControlDependence graph steps = some result) ∧
      (ExactDependence graph result ↔ ∀ block, ¬ graph.Edge block block) := by
  by_cases hentry : graph.entry ∈ graph.blockIds
  · obtain ⟨dominance, ⟨enough, hended⟩, forward, post?, hmade⟩ := analyzeDominance_settles hentry
    obtain ⟨post, rfl⟩ := Option.isSome_iff_exists.mp (hmade.post_isSome.mpr hexits)
    refine ⟨dependenceOf dominance, ⟨enough, fun steps hsteps => ?_⟩, hmade.exactDependence_iff hexits⟩
    unfold analyzeControlDependence
    rw [hended steps hsteps]
    rfl
  · obtain ⟨result, hresult, hexact, hloops⟩ := analyzeControlDependence_unreachable hentry
    exact ⟨result, ⟨0, fun steps _ => hresult steps⟩, iff_of_true hexact hloops⟩

/-- The diamond has no edge from a block to itself. -/
theorem controlDependence_exact_diamond :
    ∃ result, (∃ enough, ∀ steps ≥ enough, analyzeControlDependence diamond steps = some result) ∧
      (ExactDependence diamond result ↔ ∀ block, ¬ diamond.Edge block block) := by
  have h0 : diamond.IsReachable 0 := ⟨by decide, Relation.ReflTransGen.refl⟩
  have h1 : diamond.IsReachable 1 := h0.next (by decide)
  have h2 : diamond.IsReachable 2 := h0.next (by decide)
  have h3 : diamond.IsReachable 3 := h1.next (by decide)
  have hexit : diamond.IsExit 3 := ⟨h3, by
    intro target htarget
    rw [show diamond.validSuccessors 3 = [] by decide] at htarget
    cases htarget⟩
  have hreached3 : IsReached diamond.IsExit diamond.BackEdge 3 := ⟨_, .root hexit⟩
  have hreached1 : IsReached diamond.IsExit diamond.BackEdge 1 := hreached3.step ⟨h1, by decide⟩
  have hreached2 : IsReached diamond.IsExit diamond.BackEdge 2 := hreached3.step ⟨h2, by decide⟩
  have hreached0 : IsReached diamond.IsExit diamond.BackEdge 0 := hreached1.step ⟨h0, by decide⟩
  apply controlDependence_exact_iff diamond
  intro id hreach
  have hid := hreach.mem_blockIds
  rw [show diamond.blockIds = [0, 1, 2, 3] by decide] at hid
  simp only [List.mem_cons, List.not_mem_nil, or_false] at hid
  rcases hid with rfl | rfl | rfl | rfl
  · exact hreached0
  · exact hreached1
  · exact hreached2
  · exact hreached3

/-- The entry branches to itself and depends on that edge, which is not reported. -/
theorem not_exactDependence_entryLoop : entryLoop.ReachesExits ∧ entryLoop.ControlDepends 0 0 0 ∧
    ∃ result, (∃ enough, ∀ steps ≥ enough, analyzeControlDependence entryLoop steps = some result) ∧
      ⟨0, 0, 0⟩ ∉ result.edges ∧ ¬ ExactDependence entryLoop result := by
  have hentry : entryLoop.entry ∈ entryLoop.blockIds := by decide
  have h0 : entryLoop.IsReachable 0 := ⟨hentry, Relation.ReflTransGen.refl⟩
  have h1 : entryLoop.IsReachable 1 := h0.next (by decide)
  have hloop : entryLoop.Edge 0 0 := ⟨h0, by decide⟩
  have hexit : entryLoop.IsExit 1 := ⟨h1, by
    intro target htarget
    rw [show entryLoop.validSuccessors 1 = [] by decide] at htarget
    cases htarget⟩
  have hexits : entryLoop.ReachesExits := by
    intro id hreach
    have hid := hreach.mem_blockIds
    have hreached : IsReached entryLoop.IsExit entryLoop.BackEdge 1 := ⟨_, .root hexit⟩
    rw [show entryLoop.blockIds = [0, 1] by decide] at hid
    simp only [List.mem_cons, List.not_mem_nil, or_false] at hid
    rcases hid with rfl | rfl
    · exact hreached.step ⟨h0, by decide⟩
    · exact hreached
  obtain ⟨dominance, ⟨enough, hended⟩, forward, post?, hmade⟩ := analyzeDominance_settles hentry
  obtain ⟨post, rfl⟩ := Option.isSome_iff_exists.mp (hmade.post_isSome.mpr hexits)
  have hnot : ¬ ExactDependence entryLoop (dependenceOf dominance) :=
    fun hexact => (hmade.exactDependence_iff hexits).mp hexact 0 hloop
  refine ⟨hexits, controlDepends_self hloop, dependenceOf dominance, ⟨enough, fun steps hsteps => ?_⟩, ?_, hnot⟩
  · unfold analyzeControlDependence
    rw [hended steps hsteps]
    rfl
  · have hpost : dominance.hasPostDominance = true := by rw [hmade.result_eq]; rfl
    show _ ∉ (if dominance.hasPostDominance = true then _ else _)
    rw [if_pos hpost, hmade.mem_buildEdges hexits]
    exact fun hboth => hboth.2 rfl

end Answer

end Tala.Analysis
