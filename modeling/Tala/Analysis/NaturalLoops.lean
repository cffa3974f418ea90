import Mathlib.Data.List.Lex
import Tala.Analysis.DominanceFacts
import Tala.Library.Components

/-!
# `Analysis.NaturalLoops` — natural loops and irreducible regions

The loop part of the dominance analysis. An edge to a block that dominates its source makes a natural loop,
one for each such edge; a cyclic component that none of its blocks dominates is an irreducible region. The
loops have the members and exits of the definitions, and every cycle is in one of them or in a region
(`analyzeLoops_exact`); a cycle that is only a part of a component with a header is in a loop of that header.
Loops of different headers nest (`analyzeLoops_nested`).
-/

namespace Tala.Analysis

open Library.Search Library.Components Library.Dominators Dominance

/-- A loop by its back edge. The exits are the targets of the edges that leave it. -/
structure NaturalLoop where
  header : ControlFlowBlockId
  latch : ControlFlowBlockId
  members : List ControlFlowBlockId
  exits : List ControlFlowBlockId
deriving DecidableEq, Repr

/-- A cyclic component without a dominating header. -/
structure IrreducibleRegion where
  members : List ControlFlowBlockId
  entries : List ControlFlowBlockId
deriving DecidableEq, Repr

/-- The loops that a block is in. -/
structure LoopFacts where
  block : ControlFlowBlockId
  loopHeaders : List ControlFlowBlockId
  loopDepth : Nat
deriving DecidableEq, Repr

/-- A dominance result with its loops. -/
structure LoopResult where
  dominance : DominanceResult
  facts : List LoopFacts
  naturalLoops : List NaturalLoop
  irreducibleRegions : List IrreducibleRegion
deriving DecidableEq, Repr

namespace Dominance

/-! ## Natural loops -/

/-- What leads to the latch without the header, and the header. The header is seen from the start and never
put on the worklist, so that nothing is looked for beyond it. -/
def naturalLoopMembers (nodes : BlockSet) (header latch : ControlFlowBlockId)
    (predecessors : ControlFlowBlockId → List ControlFlowBlockId) : BlockSet :=
  ((Worklist.step predecessors)^[2 * nodes.card]
    ⟨{header, latch}, if latch = header then [] else [latch]⟩).seen

def loopExits (members : BlockSet) (successors : ControlFlowBlockId → List ControlFlowBlockId) : BlockSet :=
  members.biUnion fun member => ((successors member).filter (· ∉ members)).toFinset

def loopOf (nodes : BlockSet) (successors predecessors : ControlFlowBlockId → List ControlFlowBlockId)
    (source target : ControlFlowBlockId) : NaturalLoop :=
  let members := naturalLoopMembers nodes target source predecessors
  ⟨target, source, toVector members, toVector (loopExits members successors)⟩

/-- By header and latch. -/
def loopBefore (left right : NaturalLoop) : Prop :=
  left.header < right.header ∨ (left.header = right.header ∧ left.latch ≤ right.latch)

instance : DecidableRel loopBefore := fun _ _ => inferInstanceAs (Decidable (_ ∨ _))

def findNaturalLoops (nodes : BlockSet) (successors predecessors : ControlFlowBlockId → List ControlFlowBlockId)
    (dominators : ControlFlowBlockId → BlockSet) : List NaturalLoop :=
  ((toVector nodes).flatMap fun source =>
    ((successors source).filter fun target => target ∈ dominators source).map
      (loopOf nodes successors predecessors source)).insertionSort loopBefore

/-! ## Irreducible regions -/

def stronglyConnectedComponents (nodes : BlockSet)
    (successors predecessors : ControlFlowBlockId → List ControlFlowBlockId) : List BlockSet :=
  components
    (finishOrder (toVector nodes) successors
      ((toVector nodes).map (Library.DepthFirst.Traversal.cost successors)).sum)
    predecessors (2 * nodes.card)

def isCyclicComponent (component : BlockSet) (successors : ControlFlowBlockId → List ControlFlowBlockId) : Bool :=
  if component.card > 1 then true
  else
    match toVector component with
    | [] => false
    | block :: _ => block ∈ successors block

def regionEntries (component : BlockSet) (predecessors : ControlFlowBlockId → List ControlFlowBlockId) :
    BlockSet :=
  component.filter fun member => (predecessors member).any (· ∉ component)

def hasDominatingHeader (component : BlockSet) (dominators : ControlFlowBlockId → BlockSet) : Bool :=
  (toVector component).any fun candidate =>
    (toVector component).all fun member => candidate ∈ dominators member

def findIrreducibleRegions (nodes : BlockSet)
    (successors predecessors : ControlFlowBlockId → List ControlFlowBlockId)
    (dominators : ControlFlowBlockId → BlockSet) : List IrreducibleRegion :=
  (((stronglyConnectedComponents nodes successors predecessors).filter fun component =>
      isCyclicComponent component successors && !hasDominatingHeader component dominators).map
    fun component => ⟨toVector component, toVector (regionEntries component predecessors)⟩).insertionSort
      fun left right => left.members ≤ right.members

/-! ## The facts of the blocks -/

def loopFactsOf (loops : List NaturalLoop) (facts : DominanceBlockFacts) : LoopFacts :=
  let containing := loops.filter fun loop => facts.block ∈ loop.members
  ⟨facts.block, Library.Catalog.sortedUnique (containing.map NaturalLoop.header), containing.length⟩

end Dominance

/-- The dominance analysis with the loops; a graph without reachable blocks has none. -/
def analyzeLoops (graph : ControlFlowGraph) (steps : Nat) : Option LoopResult := do
  let dominance ← analyzeDominance graph steps
  let nodes := reachableIds dominance.controlFlow
  let successors := reachableEdges dominance.controlFlow false
  let predecessors := reachableEdges dominance.controlFlow true
  if nodes = ∅ then some ⟨dominance, dominance.facts.map (loopFactsOf []), [], []⟩
  else do
    let dominators ←
      computeDominatingSets nodes [graph.entry] predecessors dominance.controlFlow.reversePostorder steps
    let naturalLoops := findNaturalLoops nodes successors predecessors dominators
    some ⟨dominance, dominance.facts.map (loopFactsOf naturalLoops), naturalLoops,
      findIrreducibleRegions nodes successors predecessors dominators⟩

/-! ## Members and exits -/

namespace ControlFlowGraph

variable {graph : ControlFlowGraph} {header latch a b : ControlFlowBlockId}

/-- A path of reachable blocks that does not pass through the header, its ends included. -/
def ReachesAvoiding (graph : ControlFlowGraph) (header source target : ControlFlowBlockId) : Prop :=
  source ≠ header ∧ Relation.ReflTransGen (fun a b => graph.Edge a b ∧ b ≠ header) source target

theorem ReachesAvoiding.step (hedge : graph.Edge a b) (ha : a ≠ header)
    (h : graph.ReachesAvoiding header b latch) : graph.ReachesAvoiding header a latch :=
  ⟨ha, Relation.ReflTransGen.head ⟨hedge, h.1⟩ h.2⟩

abbrev nodesOf (graph : ControlFlowGraph) : BlockSet := reachableIds (analyzeControlFlow graph)

abbrev successorsOf (graph : ControlFlowGraph) : ControlFlowBlockId → List ControlFlowBlockId :=
  reachableEdges (analyzeControlFlow graph) false

abbrev inputsOf (graph : ControlFlowGraph) : ControlFlowBlockId → List ControlFlowBlockId :=
  reachableEdges (analyzeControlFlow graph) true

/-- The predecessors to look for, none of the header. -/
def inputsBehind (graph : ControlFlowGraph) (header block : ControlFlowBlockId) : List ControlFlowBlockId :=
  if block = header then [] else graph.inputsOf block

theorem mem_inputsBehind : a ∈ graph.inputsBehind header b ↔ b ≠ header ∧ graph.Edge a b := by
  unfold inputsBehind
  by_cases h : b = header
  · simp [h]
  · rw [if_neg h, mem_predecessorEdges, and_iff_right h]

/-- The header is seen and not on the worklist, so a step is one that does not look beyond it. -/
theorem step_behind {s : Worklist ControlFlowBlockId} (hseen : header ∈ s.seen) (hstack : header ∉ s.stack) :
    s.step graph.inputsOf = s.step (graph.inputsBehind header) ∧
      header ∈ (s.step graph.inputsOf).seen ∧ header ∉ (s.step graph.inputsOf).stack := by
  unfold Worklist.step
  cases hs : s.stack with
  | nil => exact ⟨rfl, hseen, by rw [hs]; exact List.not_mem_nil⟩
  | cons current rest =>
      rw [hs, List.mem_cons, not_or] at hstack
      have hsame : graph.inputsBehind header current = graph.inputsOf current := by
        unfold inputsBehind
        rw [if_neg (Ne.symm hstack.1)]
      dsimp only
      rw [hsame, foldl_visit_seen, mem_foldl_visit_stack]
      refine ⟨rfl, Finset.mem_union_left _ hseen, ?_⟩
      rintro (hmem | ⟨_, hnew⟩)
      · exact hstack.2 hmem
      · exact hnew hseen

theorem iterate_behind {s : Worklist ControlFlowBlockId} (hseen : header ∈ s.seen) (hstack : header ∉ s.stack)
    (steps : Nat) :
    (Worklist.step graph.inputsOf)^[steps] s = (Worklist.step (graph.inputsBehind header))^[steps] s := by
  induction steps generalizing s with
  | zero => rfl
  | succ steps ih =>
      obtain ⟨hsame, hseen', hstack'⟩ := step_behind hseen hstack
      rw [Function.iterate_succ_apply, Function.iterate_succ_apply, ih hseen' hstack', hsame]

theorem ledTo_inputsBehind :
    LedTo (graph.inputsBehind header) [header, latch] b ↔
      b = header ∨ graph.ReachesAvoiding header b latch := by
  constructor
  · rintro ⟨first, hfirst, hled⟩
    have hstart : first = header ∨ graph.ReachesAvoiding header first latch := by
      by_cases heq : first = header
      · exact Or.inl heq
      · right
        rcases List.mem_cons.mp hfirst with hfirst | hfirst
        · exact absurd hfirst heq
        · rw [List.mem_singleton.mp hfirst] at heq ⊢
          exact ⟨heq, Relation.ReflTransGen.refl⟩
    induction hled with
    | refl => exact hstart
    | @tail source target _ hedge ih =>
        obtain ⟨hne, hedge⟩ := mem_inputsBehind.mp hedge
        by_cases htarget : target = header
        · exact Or.inl htarget
        · exact Or.inr (ReachesAvoiding.step hedge htarget (ih.resolve_left hne))
  · rintro (rfl | ⟨hne, hpath⟩)
    · exact ⟨b, List.mem_cons_self, Relation.ReflTransGen.refl⟩
    · induction hpath using Relation.ReflTransGen.head_induction_on with
      | refl => exact ⟨latch, by simp, Relation.ReflTransGen.refl⟩
      | head hedge _ ih =>
          obtain ⟨first, hfirst, hled⟩ := ih hedge.2
          exact ⟨first, hfirst, hled.tail (mem_inputsBehind.mpr ⟨hedge.2, hedge.1⟩)⟩

/-- **The members of a loop**: the header, and what reaches the latch without it. -/
theorem mem_naturalLoopMembers (hedge : graph.Edge latch header) :
    b ∈ naturalLoopMembers graph.nodesOf header latch graph.inputsOf ↔
      b = header ∨ graph.ReachesAvoiding header b latch := by
  have hheader := mem_reachableIds.mpr (hedge.1.next hedge.2)
  have hlatch := mem_reachableIds.mpr hedge.1
  have hsound : Worklist.Sound (graph.inputsBehind header) [header, latch]
      ⟨{header, latch}, if latch = header then [] else [latch]⟩ := by
    refine ⟨fun node hnode => by simpa using hnode, fun node hnode => ?_, fun node hnode => ?_, ?_⟩
    · exact ⟨node, by simpa using hnode, Relation.ReflTransGen.refl⟩
    · dsimp only at hnode
      split at hnode
      · cases hnode
      · rw [List.mem_singleton.mp hnode]
        exact Finset.mem_insert_of_mem (Finset.mem_singleton_self latch)
    · intro node hnode hnot other hother
      obtain ⟨hne, _⟩ := mem_inputsBehind.mp hother
      have heq : node = latch := by
        rcases Finset.mem_insert.mp hnode with hnode | hnode
        · exact absurd hnode hne
        · exact Finset.mem_singleton.mp hnode
      dsimp only at hnot
      rw [heq, if_neg (heq ▸ hne)] at hnot
      exact absurd (List.mem_singleton_self _) hnot
  have hstack : header ∉ (if latch = header then [] else [latch]) := by
    split
    · exact List.not_mem_nil
    · rename_i hne
      rw [List.mem_singleton]
      exact Ne.symm hne
  unfold naturalLoopMembers
  rw [@iterate_behind graph header ⟨{header, latch}, if latch = header then [] else [latch]⟩
      (Finset.mem_insert_self _ _) hstack,
    (hsound.iterate _).mem_seen_iff, ledTo_inputsBehind]
  apply @iterate_ends _ _ _ _ _ graph.nodesOf _ hsound
  · intro node hnode
    rcases Finset.mem_insert.mp hnode with rfl | hnode
    · exact hheader
    · rw [Finset.mem_singleton.mp hnode]
      exact hlatch
  · have hless : (graph.nodesOf \ {header, latch}).card + 1 ≤ graph.nodesOf.card := by
      refine Nat.succ_le_of_lt (Finset.card_lt_card (Finset.ssubset_iff_subset_ne.mpr ⟨Finset.sdiff_subset, ?_⟩))
      intro heq
      have hin : header ∈ graph.nodesOf := hheader
      rw [← heq, Finset.mem_sdiff] at hin
      exact hin.2 (Finset.mem_insert_self _ _)
    show 2 * (graph.nodesOf \ {header, latch}).card + (if latch = header then [] else [latch]).length ≤ _
    split
    · rw [List.length_nil]
      omega
    · rw [List.length_singleton]
      omega
  · intro node _ other hother
    exact mem_reachableIds.mpr (mem_inputsBehind.mp hother).2.1

theorem mem_loopExits {members : BlockSet} :
    b ∈ loopExits members graph.successorsOf ↔ b ∉ members ∧ ∃ member ∈ members, graph.Edge member b := by
  unfold loopExits
  rw [Finset.mem_biUnion]
  constructor
  · rintro ⟨member, hmember, hmem⟩
    obtain ⟨hedge, hnot⟩ := List.mem_filter.mp (List.mem_toFinset.mp hmem)
    exact ⟨by simpa using hnot, member, hmember, mem_successorEdges.mp hedge⟩
  · rintro ⟨hnot, member, hmember, hedge⟩
    refine ⟨member, hmember, List.mem_toFinset.mpr (List.mem_filter.mpr ⟨?_, by simpa using hnot⟩)⟩
    exact mem_successorEdges.mpr hedge

/-- The dominating sets that the loops are found with. -/
def ExactDominators (graph : ControlFlowGraph) (dominators : ControlFlowBlockId → BlockSet) : Prop :=
  ∀ block, graph.IsReachable block →
    ∀ a, a ∈ dominators block ↔ Dominates graph.IsEntry graph.Edge a block

section Found

variable {dominators : ControlFlowBlockId → BlockSet} {loop : NaturalLoop}

/-- **The loops are those of the back edges.** -/
theorem mem_findNaturalLoops (hdominators : graph.ExactDominators dominators) :
    loop ∈ findNaturalLoops graph.nodesOf graph.successorsOf graph.inputsOf dominators ↔
      ∃ header latch, graph.Edge latch header ∧ Dominates graph.IsEntry graph.Edge header latch ∧
        loop = loopOf graph.nodesOf graph.successorsOf graph.inputsOf latch header := by
  unfold findNaturalLoops
  rw [List.mem_insertionSort, List.mem_flatMap]
  constructor
  · rintro ⟨latch, _, hmem⟩
    obtain ⟨header, hheader, rfl⟩ := List.mem_map.mp hmem
    obtain ⟨hedge, hdominates⟩ := List.mem_filter.mp hheader
    have hedge := mem_successorEdges.mp hedge
    exact ⟨header, latch, hedge, (hdominators latch hedge.1 header).mp (by simpa using hdominates), rfl⟩
  · rintro ⟨header, latch, hedge, hdominates, rfl⟩
    refine ⟨latch, mem_toVector.mpr (mem_reachableIds.mpr hedge.1), List.mem_map_of_mem ?_⟩
    refine List.mem_filter.mpr ⟨mem_successorEdges.mpr hedge, ?_⟩
    simpa using (hdominators latch hedge.1 header).mpr hdominates

/-! ## Components -/

/-- Each of the two blocks leads to the other. -/
def SameComponent (graph : ControlFlowGraph) (a b : ControlFlowBlockId) : Prop :=
  Relation.ReflTransGen graph.Edge a b ∧ Relation.ReflTransGen graph.Edge b a

theorem mutual_iff : Mutual graph.successorsOf a b ↔ graph.SameComponent a b := by
  have hedge : (fun source target => target ∈ graph.successorsOf source) = graph.Edge := by
    funext source target
    exact propext mem_successorEdges
  unfold Mutual Library.DepthFirst.Reachable
  rw [hedge]
  exact Iff.rfl

theorem mem_toVector_nodesOf : a ∈ toVector graph.nodesOf ↔ graph.IsReachable a := by
  rw [mem_toVector, mem_reachableIds]

theorem stronglyConnectedComponents_spec :
    (∀ component ∈ stronglyConnectedComponents graph.nodesOf graph.successorsOf graph.inputsOf,
        ∃ root, graph.IsReachable root ∧ ∀ b, b ∈ component ↔ graph.SameComponent b root) ∧
      ∀ root, graph.IsReachable root →
        ∃ component ∈ stronglyConnectedComponents graph.nodesOf graph.successorsOf graph.inputsOf,
          ∀ b, b ∈ component ↔ graph.SameComponent b root := by
  have hclosed : ∀ node ∈ toVector graph.nodesOf, ∀ target ∈ graph.successorsOf node,
      target ∈ toVector graph.nodesOf := by
    intro node _ target htarget
    have hedge := mem_successorEdges.mp htarget
    exact mem_toVector_nodesOf.mpr (hedge.1.next hedge.2)
  have hdual : Dual graph.successorsOf graph.inputsOf (toVector graph.nodesOf) := by
    refine ⟨fun a b => ?_, hclosed, fun node _ source hsource => ?_⟩
    · rw [mem_predecessorEdges, mem_successorEdges]
    · exact mem_toVector_nodesOf.mpr (mem_predecessorEdges.mp hsource).1
  have hfinish := finishOrder_spec (Finset.sort_nodup _ _) hclosed (le_refl _)
  have hsteps : 2 * (toVector graph.nodesOf).length ≤ 2 * graph.nodesOf.card := by
    rw [show (toVector graph.nodesOf).length = graph.nodesOf.card from Finset.length_sort _]
  obtain ⟨hsound, hcomplete⟩ := components_spec hdual hfinish hsteps
  constructor
  · intro component hcomponent
    obtain ⟨root, hroot, hmem⟩ := hsound component hcomponent
    exact ⟨root, mem_toVector_nodesOf.mp hroot, fun b => (hmem b).trans mutual_iff⟩
  · intro root hroot
    obtain ⟨component, hcomponent, hmem⟩ := hcomplete root (mem_toVector_nodesOf.mpr hroot)
    exact ⟨component, hcomponent, fun b => (hmem b).trans mutual_iff⟩

variable {component : BlockSet} {root : ControlFlowBlockId}

/-- Some block of the component leads back to itself. -/
theorem isCyclicComponent_iff (hmem : ∀ b, b ∈ component ↔ graph.SameComponent b root) :
    isCyclicComponent component graph.successorsOf = true ↔
      ∃ b ∈ component, Relation.TransGen graph.Edge b b := by
  have hin : root ∈ component := (hmem root).mpr ⟨Relation.ReflTransGen.refl, Relation.ReflTransGen.refl⟩
  unfold isCyclicComponent
  by_cases hcard : component.card > 1
  · rw [if_pos hcard]
    obtain ⟨other, hother, hne⟩ := Finset.exists_mem_ne hcard root
    obtain ⟨hto, hfrom⟩ := (hmem other).mp hother
    have hcycle : Relation.TransGen graph.Edge root root := by
      rcases Relation.reflTransGen_iff_eq_or_transGen.mp hfrom with heq | hpath
      · exact absurd heq hne
      · exact hpath.trans_left hto
    exact ⟨fun _ => ⟨root, hin, hcycle⟩, fun _ => rfl⟩
  · rw [if_neg hcard]
    obtain ⟨only, rfl⟩ := Finset.card_eq_one.mp (le_antisymm (Nat.not_lt.mp hcard) (Finset.card_pos.mpr ⟨root, hin⟩))
    have honly : only = root := (Finset.mem_singleton.mp hin).symm
    have hvector : toVector {only} = [only] := Finset.sort_singleton _ _
    rw [hvector]
    dsimp only
    rw [decide_eq_true_eq, mem_successorEdges]
    constructor
    · intro hedge
      exact ⟨only, Finset.mem_singleton_self _, Relation.TransGen.single hedge⟩
    · rintro ⟨b, hb, hcycle⟩
      rw [Finset.mem_singleton.mp hb] at hcycle
      -- the first block after it is in the component too
      obtain ⟨next, hedge, hrest⟩ := Relation.TransGen.head'_iff.mp hcycle
      have hnext : next ∈ ({only} : BlockSet) := by
        rw [hmem, ← honly]
        exact ⟨hrest, Relation.ReflTransGen.single hedge⟩
      rw [Finset.mem_singleton.mp hnext] at hedge
      exact hedge

theorem hasDominatingHeader_iff (hdominators : graph.ExactDominators dominators)
    (hreach : ∀ b ∈ component, graph.IsReachable b) :
    hasDominatingHeader component dominators = true ↔
      ∃ header ∈ component, ∀ b ∈ component, Dominates graph.IsEntry graph.Edge header b := by
  unfold hasDominatingHeader
  simp only [List.any_eq_true, List.all_eq_true, mem_toVector, decide_eq_true_eq]
  apply exists_congr
  intro header
  apply and_congr_right
  intro _
  exact forall₂_congr fun b hb => hdominators b (hreach b hb) header

/-- A cyclic component that none of its blocks dominates, with the blocks that are entered from outside. -/
structure IsIrreducible (graph : ControlFlowGraph) (region : IrreducibleRegion) : Prop where
  component : ∃ root, graph.IsReachable root ∧ ∀ b, b ∈ region.members ↔ graph.SameComponent b root
  cyclic : ∃ b ∈ region.members, Relation.TransGen graph.Edge b b
  headless : ¬ ∃ header ∈ region.members, ∀ b ∈ region.members, Dominates graph.IsEntry graph.Edge header b
  entries : ∀ b, b ∈ region.entries ↔
    b ∈ region.members ∧ ∃ source, source ∉ region.members ∧ graph.Edge source b

theorem reachable_of_sameComponent (hroot : graph.IsReachable root)
    (h : graph.SameComponent a root) : graph.IsReachable a := by
  rcases Relation.ReflTransGen.cases_head h.1 with rfl | ⟨next, hedge, _⟩
  · exact hroot
  · exact hedge.1

theorem mem_regionEntries :
    b ∈ regionEntries component graph.inputsOf ↔
      b ∈ component ∧ ∃ source, source ∉ component ∧ graph.Edge source b := by
  unfold regionEntries
  rw [Finset.mem_filter, List.any_eq_true]
  apply and_congr_right
  intro _
  apply exists_congr
  intro source
  rw [mem_predecessorEdges, decide_eq_true_eq]
  exact and_comm

theorem mem_findIrreducibleRegions (hdominators : graph.ExactDominators dominators) {region : IrreducibleRegion}
    (h : region ∈ findIrreducibleRegions graph.nodesOf graph.successorsOf graph.inputsOf dominators) :
    graph.IsIrreducible region := by
  unfold findIrreducibleRegions at h
  rw [List.mem_insertionSort] at h
  obtain ⟨component, hmem, rfl⟩ := List.mem_map.mp h
  obtain ⟨hcomponent, hkind⟩ := List.mem_filter.mp hmem
  rw [Bool.and_eq_true, Bool.not_eq_true'] at hkind
  obtain ⟨root, hroot, hiff⟩ := stronglyConnectedComponents_spec.1 component hcomponent
  have hreach : ∀ b ∈ component, graph.IsReachable b := fun b hb =>
    reachable_of_sameComponent hroot ((hiff b).mp hb)
  refine ⟨⟨root, hroot, fun b => mem_toVector.trans (hiff b)⟩, ?_, ?_, fun b => ?_⟩
  · obtain ⟨b, hb, hcycle⟩ := (isCyclicComponent_iff hiff).mp hkind.1
    exact ⟨b, mem_toVector.mpr hb, hcycle⟩
  · rintro ⟨header, hheader, hall⟩
    have htrue := (hasDominatingHeader_iff hdominators hreach).mpr
      ⟨header, mem_toVector.mp hheader, fun b hb => hall b (mem_toVector.mpr hb)⟩
    rw [hkind.2] at htrue
    cases htrue
  · show b ∈ toVector _ ↔ b ∈ toVector _ ∧ _
    simp only [mem_toVector, mem_regionEntries]

/-- The component of a block on a cycle is a region or has a header. -/
theorem region_or_header (hdominators : graph.ExactDominators dominators)
    (hcycle : Relation.TransGen graph.Edge root root) :
    (∃ region ∈ findIrreducibleRegions graph.nodesOf graph.successorsOf graph.inputsOf dominators,
        ∀ b, graph.SameComponent b root → b ∈ region.members) ∨
      ∃ header, graph.SameComponent header root ∧
        ∀ b, graph.SameComponent b root → Dominates graph.IsEntry graph.Edge header b := by
  obtain ⟨next, hedge, _⟩ := Relation.TransGen.head'_iff.mp hcycle
  have hroot := hedge.1
  obtain ⟨component, hcomponent, hiff⟩ := stronglyConnectedComponents_spec.2 root hroot
  have hreach : ∀ b ∈ component, graph.IsReachable b := fun b hb =>
    reachable_of_sameComponent hroot ((hiff b).mp hb)
  cases hheader : hasDominatingHeader component dominators with
  | true =>
      right
      obtain ⟨header, hmem, hall⟩ := (hasDominatingHeader_iff hdominators hreach).mp hheader
      exact ⟨header, (hiff header).mp hmem, fun b hb => hall b ((hiff b).mpr hb)⟩
  | false =>
      left
      have hcyclic : isCyclicComponent component graph.successorsOf = true :=
        (isCyclicComponent_iff hiff).mpr
          ⟨root, (hiff root).mpr ⟨Relation.ReflTransGen.refl, Relation.ReflTransGen.refl⟩, hcycle⟩
      refine ⟨⟨toVector component, toVector (regionEntries component graph.inputsOf)⟩, ?_, fun b hb => ?_⟩
      · unfold findIrreducibleRegions
        rw [List.mem_insertionSort]
        apply List.mem_map_of_mem
        exact List.mem_filter.mpr ⟨hcomponent, by rw [hcyclic, hheader]; rfl⟩
      · exact mem_toVector.mpr ((hiff b).mpr hb)

end Found

/-! ## Cycles -/

/-- Blocks with an edge from each to the next and from the last to the first. -/
def IsCycle (graph : ControlFlowGraph) : List ControlFlowBlockId → Prop
  | [] => False
  | first :: rest => (first :: rest ++ [first]).IsChain graph.Edge

/-- A cycle may start anywhere on it. -/
theorem IsCycle.rotate {before after : List ControlFlowBlockId} {block : ControlFlowBlockId}
    (h : graph.IsCycle (before ++ block :: after)) :
    (block :: (after ++ before) ++ [block]).IsChain graph.Edge := by
  cases before with
  | nil =>
      rw [List.append_nil]
      exact h
  | cons first before =>
      have hchain : (first :: before ++ block :: (after ++ [first])).IsChain graph.Edge := by
        have heq : first :: before ++ block :: (after ++ [first])
            = first :: (before ++ block :: after) ++ [first] := by simp
        rw [heq]
        exact h
      obtain ⟨hfirst, hsecond⟩ := List.isChain_split.mp hchain
      have heq : block :: (after ++ first :: before) ++ [block]
          = (block :: after) ++ first :: (before ++ [block]) := by simp
      rw [heq]
      exact List.isChain_split.mpr ⟨hsecond, hfirst⟩

theorem mem_rotate {before after : List ControlFlowBlockId} :
    b ∈ a :: (after ++ before) ↔ b ∈ before ++ a :: after := by
  rw [← List.cons_append, List.mem_append, List.mem_append, or_comm]

variable {path : List ControlFlowBlockId}

/-- A walk to the header has a first edge to it. -/
theorem exists_latch (hchain : (a :: path ++ [header]).IsChain graph.Edge) (hne : a ≠ header) :
    ∃ latch ∈ a :: path, graph.ReachesAvoiding header a latch ∧ graph.Edge latch header := by
  induction path generalizing a with
  | nil =>
      obtain ⟨hedge, _⟩ := List.isChain_cons_cons.mp hchain
      exact ⟨a, List.mem_cons_self, ⟨hne, Relation.ReflTransGen.refl⟩, hedge⟩
  | cons next path ih =>
      obtain ⟨hedge, hrest⟩ := List.isChain_cons_cons.mp hchain
      by_cases hnext : next = header
      · rw [hnext] at hedge
        exact ⟨a, List.mem_cons_self, ⟨hne, Relation.ReflTransGen.refl⟩, hedge⟩
      · obtain ⟨latch, hmem, hreach, hback⟩ := ih hrest hnext
        exact ⟨latch, List.mem_cons_of_mem _ hmem, hreach.step hedge hne, hback⟩

/-- On a walk that avoids the header each block reaches the last one. -/
theorem reachesAvoiding_last {last : ControlFlowBlockId}
    (hchain : (path ++ [last]).IsChain graph.Edge) (havoid : ∀ b ∈ path ++ [last], b ≠ header) :
    ∀ b ∈ path ++ [last], graph.ReachesAvoiding header b last := by
  induction path with
  | nil =>
      intro b hb
      rw [List.mem_singleton.mp hb]
      exact ⟨havoid last (List.mem_singleton_self _), Relation.ReflTransGen.refl⟩
  | cons first path ih =>
      have hrest := ih hchain.tail fun b hb => havoid b (List.mem_cons_of_mem _ hb)
      intro b hb
      rcases List.mem_cons.mp hb with rfl | hb
      · cases path with
        | nil =>
            obtain ⟨hedge, _⟩ := List.isChain_cons_cons.mp hchain
            exact (hrest last (List.mem_singleton_self _)).step hedge (havoid b List.mem_cons_self)
        | cons next path =>
            obtain ⟨hedge, _⟩ := List.isChain_cons_cons.mp hchain
            exact (hrest next List.mem_cons_self).step hedge (havoid b List.mem_cons_self)
      · exact hrest b hb

theorem reflTransGen_of_isChain (hchain : (a :: path).IsChain graph.Edge) :
    ∀ b ∈ a :: path, Relation.ReflTransGen graph.Edge a b := by
  induction path generalizing a with
  | nil =>
      intro b hb
      rw [List.mem_singleton.mp hb]
  | cons next path ih =>
      obtain ⟨hedge, hrest⟩ := List.isChain_cons_cons.mp hchain
      intro b hb
      rcases List.mem_cons.mp hb with rfl | hb
      · exact Relation.ReflTransGen.refl
      · exact Relation.ReflTransGen.head hedge (ih hrest b hb)

/-- Each block of a cycle leads to each other one. -/
theorem IsCycle.leads {cycle : List ControlFlowBlockId} (h : graph.IsCycle cycle) (ha : a ∈ cycle)
    (hb : b ∈ cycle) : Relation.TransGen graph.Edge a b := by
  obtain ⟨before, after, rfl⟩ := List.append_of_mem ha
  have hchain := h.rotate
  have hmem : b ∈ after ++ before ++ [a] := by
    rcases List.mem_cons.mp (mem_rotate.mpr hb) with rfl | hb
    · exact List.mem_append_right _ (List.mem_singleton_self b)
    · exact List.mem_append_left _ hb
  cases hrest : after ++ before ++ [a] with
  | nil => exact absurd hrest (by simp)
  | cons next rest =>
      rw [List.cons_append, hrest] at hchain
      rw [hrest] at hmem
      obtain ⟨hedge, hwalk⟩ := List.isChain_cons_cons.mp hchain
      exact Relation.TransGen.head' hedge (reflTransGen_of_isChain hwalk b hmem)

/-- All blocks of a walk around are in loops of a header, in one loop where the walk does not repeat itself. -/
def InLoops (loops : List NaturalLoop) (header : ControlFlowBlockId) (cycle : List ControlFlowBlockId) : Prop :=
  (∀ b ∈ cycle, ∃ loop ∈ loops, loop.header = header ∧ b ∈ loop.members) ∧
    (cycle.Nodup → ∃ loop ∈ loops, loop.header = header ∧ ∀ b ∈ cycle, b ∈ loop.members)

section Covered

variable {dominators : ControlFlowBlockId → BlockSet} {cycle : List ControlFlowBlockId}

theorem exists_loop (hdominators : graph.ExactDominators dominators) (hedge : graph.Edge latch header)
    (hdominates : Dominates graph.IsEntry graph.Edge header latch) :
    ∃ loop ∈ findNaturalLoops graph.nodesOf graph.successorsOf graph.inputsOf dominators,
      loop.header = header ∧
        ∀ b, b ∈ loop.members ↔ b = header ∨ graph.ReachesAvoiding header b latch :=
  ⟨_, (mem_findNaturalLoops hdominators).mpr ⟨header, latch, hedge, hdominates, rfl⟩, rfl,
    fun _ => mem_toVector.trans (mem_naturalLoopMembers hedge)⟩

/-- A cycle with a header on it. -/
theorem IsCycle.inLoops (h : graph.IsCycle cycle) (hdominators : graph.ExactDominators dominators)
    (hheader : header ∈ cycle) (hall : ∀ b ∈ cycle, Dominates graph.IsEntry graph.Edge header b) :
    InLoops (findNaturalLoops graph.nodesOf graph.successorsOf graph.inputsOf dominators) header cycle := by
  obtain ⟨before, after, rfl⟩ := List.append_of_mem hheader
  have hchain := h.rotate
  have hmem : ∀ {b}, b ∈ header :: (after ++ before) ↔ b ∈ before ++ header :: after := fun {b} => mem_rotate
  generalize hpath : after ++ before = path at hchain hmem
  -- the last block before the header again, its latch
  obtain ⟨init, latch, hlast⟩ : ∃ init latch, header :: path = init ++ [latch] :=
    ⟨_, _, (List.dropLast_append_getLast (List.cons_ne_nil header path)).symm⟩
  have hback : graph.Edge latch header := by
    rw [hlast, List.append_assoc] at hchain
    exact (List.isChain_cons_cons.mp (List.isChain_append.mp hchain).2.1).1
  have hlatch : latch ∈ before ++ header :: after := hmem.mp (by rw [hlast]; simp)
  obtain ⟨loop, hloop, hloopHeader, hmembers⟩ := exists_loop hdominators hback (hall latch hlatch)
  constructor
  · intro b hb
    by_cases heq : b = header
    · exact ⟨loop, hloop, hloopHeader, (hmembers b).mpr (Or.inl heq)⟩
    · obtain ⟨first, rest, hsplit⟩ := List.append_of_mem ((List.mem_cons.mp (hmem.mpr hb)).resolve_left heq)
      have hfrom : (b :: rest ++ [header]).IsChain graph.Edge := by
        rw [hsplit] at hchain
        have hassoc : header :: (first ++ b :: rest) ++ [header]
            = (header :: first) ++ (b :: rest ++ [header]) := by simp
        rw [hassoc] at hchain
        exact (List.isChain_append.mp hchain).2.1
      obtain ⟨latch', hmem', hreach, hback'⟩ := exists_latch hfrom heq
      have hlatch' : latch' ∈ before ++ header :: after := by
        apply hmem.mp
        rw [hsplit]
        exact List.mem_cons_of_mem _ (List.mem_append_right _ hmem')
      obtain ⟨loop', hloop', hheader', hmembers'⟩ := exists_loop hdominators hback' (hall latch' hlatch')
      exact ⟨loop', hloop', hheader', (hmembers' b).mpr (Or.inr hreach)⟩
  · intro hnodup
    refine ⟨loop, hloop, hloopHeader, fun b hb => ?_⟩
    have hpathNodup : (header :: path).Nodup := by
      rw [← hpath]
      refine (List.Perm.nodup_iff ?_).mp hnodup
      exact List.perm_append_comm
    rw [hmembers]
    rcases List.mem_cons.mp (hmem.mpr hb) with rfl | hb
    · exact Or.inl rfl
    · right
      cases init with
      | nil =>
          rw [List.nil_append, List.cons.injEq] at hlast
          rw [hlast.2] at hb
          cases hb
      | cons first init =>
          rw [List.cons_append, List.cons.injEq] at hlast
          rw [hlast.2] at hb hchain hpathNodup
          refine reachesAvoiding_last ?_ ?_ b hb
          · exact (List.isChain_append.mp hchain.tail).1
          · rintro other hother rfl
            exact (List.nodup_cons.mp hpathNodup).1 hother

/-- A walk from a block to the header meets a latch first. -/
theorem exists_latch_of_reach (hreach : Relation.ReflTransGen graph.Edge a header) (hne : a ≠ header) :
    ∃ latch, graph.ReachesAvoiding header a latch ∧ graph.Edge latch header := by
  induction hreach using Relation.ReflTransGen.head_induction_on with
  | refl => exact absurd rfl hne
  | @head a next hedge _ ih =>
      by_cases hnext : next = header
      · rw [hnext] at hedge
        exact ⟨a, ⟨hne, Relation.ReflTransGen.refl⟩, hedge⟩
      · obtain ⟨latch, hlatch, hback⟩ := ih hnext
        exact ⟨latch, hlatch.step hedge hne, hback⟩

theorem ReachesAvoiding.trans {middle : ControlFlowBlockId} (h : graph.ReachesAvoiding header a middle)
    (hrest : graph.ReachesAvoiding header middle b) : graph.ReachesAvoiding header a b :=
  ⟨h.1, h.2.trans hrest.2⟩

theorem ReachesAvoiding.reaches (h : graph.ReachesAvoiding header a b) : Relation.ReflTransGen graph.Edge a b :=
  Relation.ReflTransGen.mono (fun _ _ hstep => hstep.1) a b h.2

/-- A cycle that the header of its component is not on. -/
theorem IsCycle.inOuterLoop (h : graph.IsCycle cycle) (hdominators : graph.ExactDominators dominators)
    (ha : a ∈ cycle) (hheader : header ∉ cycle) (hsame : graph.SameComponent header a)
    (hall : ∀ b, graph.SameComponent b a → Dominates graph.IsEntry graph.Edge header b) :
    ∃ loop ∈ findNaturalLoops graph.nodesOf graph.successorsOf graph.inputsOf dominators,
      loop.header = header ∧ ∀ b ∈ cycle, b ∈ loop.members := by
  have hne : ∀ {b}, b ∈ cycle → b ≠ header := by
    rintro b hb rfl
    exact hheader hb
  obtain ⟨latch, hlatch, hback⟩ := exists_latch_of_reach hsame.2 (hne ha)
  have hcomponent : graph.SameComponent latch a := ⟨(hsame.1.head hback), hlatch.reaches⟩
  obtain ⟨loop, hloop, hloopHeader, hmembers⟩ := exists_loop hdominators hback (hall latch hcomponent)
  refine ⟨loop, hloop, hloopHeader, fun b hb => (hmembers b).mpr (Or.inr ?_)⟩
  -- the cycle leads from the block to the first one, and from there to the latch
  obtain ⟨before, after, rfl⟩ := List.append_of_mem ha
  have hchain := h.rotate
  have havoid : ∀ other ∈ a :: (after ++ before) ++ [a], other ≠ header := by
    intro other hother
    rcases List.mem_append.mp hother with hother | hother
    · exact hne (mem_rotate.mp hother)
    · exact hne (List.mem_singleton.mp hother ▸ ha)
  have hmem : b ∈ a :: (after ++ before) ++ [a] := List.mem_append_left _ (mem_rotate.mpr hb)
  exact (reachesAvoiding_last hchain havoid b hmem).trans hlatch

end Covered

/-! ## The analysis -/

/-- The loops and regions of a result are those of the definitions, and every cycle is in one of them. The
third alternative is a cycle without a header of its own in a component that has one. -/
structure LoopsExact (graph : ControlFlowGraph) (result : LoopResult) : Prop where
  backEdges : ∀ header latch,
    (∃ loop ∈ result.naturalLoops, loop.header = header ∧ loop.latch = latch) ↔
      graph.Edge latch header ∧ Dominates graph.IsEntry graph.Edge header latch
  members : ∀ loop ∈ result.naturalLoops, ∀ b,
    b ∈ loop.members ↔ b = loop.header ∨ graph.ReachesAvoiding loop.header b loop.latch
  exits : ∀ loop ∈ result.naturalLoops, ∀ b,
    b ∈ loop.exits ↔ b ∉ loop.members ∧ ∃ member ∈ loop.members, graph.Edge member b
  regions : ∀ region ∈ result.irreducibleRegions, graph.IsIrreducible region
  cycles : ∀ cycle, graph.IsCycle cycle →
    (∃ header ∈ cycle, InLoops result.naturalLoops header cycle) ∨
    (∃ region ∈ result.irreducibleRegions, ∀ b ∈ cycle, b ∈ region.members) ∨
    ((∀ header ∈ cycle, ∃ b ∈ cycle, ¬ Dominates graph.IsEntry graph.Edge header b) ∧
      ∃ header, header ∉ cycle ∧ (∀ b ∈ cycle, Dominates graph.IsEntry graph.Edge header b) ∧
        ∃ loop ∈ result.naturalLoops, loop.header = header ∧ ∀ b ∈ cycle, b ∈ loop.members)

/-- The result from the dominating sets. -/
def loopResultOf (graph : ControlFlowGraph) (dominance : DominanceResult)
    (dominators : ControlFlowBlockId → BlockSet) : LoopResult where
  dominance := dominance
  facts := dominance.facts.map
    (loopFactsOf (findNaturalLoops graph.nodesOf graph.successorsOf graph.inputsOf dominators))
  naturalLoops := findNaturalLoops graph.nodesOf graph.successorsOf graph.inputsOf dominators
  irreducibleRegions := findIrreducibleRegions graph.nodesOf graph.successorsOf graph.inputsOf dominators

variable {dominators : ControlFlowBlockId → BlockSet}

theorem loopsExact_loopResultOf (dominance : DominanceResult) (hdominators : graph.ExactDominators dominators) :
    graph.LoopsExact (loopResultOf graph dominance dominators) where
  backEdges := by
    intro header latch
    constructor
    · rintro ⟨loop, hloop, rfl, rfl⟩
      obtain ⟨header, latch, hedge, hdominates, rfl⟩ := (mem_findNaturalLoops hdominators).mp hloop
      exact ⟨hedge, hdominates⟩
    · rintro ⟨hedge, hdominates⟩
      exact ⟨_, (mem_findNaturalLoops hdominators).mpr ⟨header, latch, hedge, hdominates, rfl⟩, rfl, rfl⟩
  members := by
    intro loop hloop b
    obtain ⟨header, latch, hedge, _, rfl⟩ := (mem_findNaturalLoops hdominators).mp hloop
    exact mem_toVector.trans (mem_naturalLoopMembers hedge)
  exits := by
    intro loop hloop b
    obtain ⟨header, latch, _, _, rfl⟩ := (mem_findNaturalLoops hdominators).mp hloop
    show b ∈ toVector _ ↔ b ∉ toVector _ ∧ ∃ member ∈ toVector _, _
    simp only [mem_toVector]
    exact mem_loopExits
  regions := fun _ hregion => mem_findIrreducibleRegions hdominators hregion
  cycles := by
    intro cycle hcycle
    by_cases hon : ∃ header ∈ cycle, ∀ b ∈ cycle, Dominates graph.IsEntry graph.Edge header b
    · obtain ⟨header, hheader, hall⟩ := hon
      exact Or.inl ⟨header, hheader, hcycle.inLoops hdominators hheader hall⟩
    · right
      obtain ⟨root, hroot⟩ : ∃ root, root ∈ cycle := by
        cases cycle with
        | nil => exact absurd hcycle id
        | cons first rest => exact ⟨first, List.mem_cons_self⟩
      have hsame : ∀ b ∈ cycle, graph.SameComponent b root := fun b hb =>
        ⟨(hcycle.leads hb hroot).to_reflTransGen, (hcycle.leads hroot hb).to_reflTransGen⟩
      rcases region_or_header hdominators (hcycle.leads hroot hroot) with
        ⟨region, hregion, hmem⟩ | ⟨header, hcomponent, hall⟩
      · exact Or.inl ⟨region, hregion, fun b hb => hmem b (hsame b hb)⟩
      · right
        have hoff : header ∉ cycle := fun hmem => hon ⟨header, hmem, fun b hb => hall b (hsame b hb)⟩
        refine ⟨fun other hother => ?_, header, hoff, fun b hb => hall b (hsame b hb),
          hcycle.inOuterLoop hdominators hroot hoff hcomponent hall⟩
        by_contra hnone
        push Not at hnone
        exact hon ⟨other, hother, hnone⟩

/-- Every number of passes that is enough gives the same sets. -/
theorem computeDominatingSets_settles (hentry : graph.entry ∈ graph.blockIds) :
    ∃ dominators, graph.ExactDominators dominators ∧ ∃ enough, ∀ steps ≥ enough,
      computeDominatingSets graph.nodesOf [graph.entry] graph.inputsOf
        (analyzeControlFlow graph).reversePostorder steps = some dominators := by
  obtain ⟨enough, hended⟩ := computeDominatingSets_isSome (forward_direction hentry) mem_order
  obtain ⟨dominators, hdominators⟩ := hended enough (le_refl enough)
  have hleast : ∀ {steps : Nat} {sets : ControlFlowBlockId → BlockSet},
      computeDominatingSets graph.nodesOf [graph.entry] graph.inputsOf
        (analyzeControlFlow graph).reversePostorder steps = some sets → _ := fun h =>
    @Library.Dataflow.Rises.passes_isLeastSolution ControlFlowBlockId BlockSetᵒᵈ _ _ _ _ _ _ _ _
      (dominatingSet_monotone (forward_direction hentry)) (fun _ => Iff.rfl) _ _
      (dominatingSet_rises (forward_direction hentry) _ mem_order) h
  refine ⟨dominators, fun block hblock a => ?_, enough, fun steps hsteps => ?_⟩
  · have hmem := mem_computeDominatingSets (forward_direction hentry) mem_order hdominators (a := a)
      (mem_reachableIds.mpr hblock)
    rwa [forward_roots, forward_edge] at hmem
  · obtain ⟨sets, hsets⟩ := hended steps hsteps
    rw [hsets, (hleast hsets).unique (hleast hdominators)]

/-! ## Nesting -/

/-- The header of a loop dominates its blocks, loops of different headers are apart or one is in the other,
and the headers that a block is given are those of the loops it is in. -/
structure LoopsNested (graph : ControlFlowGraph) (result : LoopResult) : Prop where
  headed : ∀ loop ∈ result.naturalLoops, ∀ b ∈ loop.members,
    Dominates graph.IsEntry graph.Edge loop.header b
  nested : ∀ left ∈ result.naturalLoops, ∀ right ∈ result.naturalLoops, left.header ≠ right.header →
    (∀ b ∈ left.members, b ∉ right.members) ∨ (∀ b ∈ left.members, b ∈ right.members) ∨
      ∀ b ∈ right.members, b ∈ left.members
  facts : ∀ facts ∈ result.facts, ∀ header, header ∈ facts.loopHeaders ↔
    ∃ loop ∈ result.naturalLoops, loop.header = header ∧ facts.block ∈ loop.members

theorem ReachesAvoiding.dominates (h : graph.ReachesAvoiding header b latch)
    (hlatch : Dominates graph.IsEntry graph.Edge header latch) : Dominates graph.IsEntry graph.Edge header b := by
  obtain ⟨-, hreach⟩ := h
  induction hreach using Relation.ReflTransGen.head_induction_on with
  | refl => exact hlatch
  | head hedge _ ih =>
      intro path hpath
      refine (List.mem_append.mp (ih _ (hpath.step hedge.1))).resolve_right fun hmem => ?_
      exact hedge.2 (List.mem_singleton.mp hmem).symm

section Nested

variable {result : LoopResult} (h : graph.LoopsExact result) {loop outer inner : NaturalLoop}

include h

theorem LoopsExact.dominates (hloop : loop ∈ result.naturalLoops) (hb : b ∈ loop.members) :
    Dominates graph.IsEntry graph.Edge loop.header b := by
  have hback := (h.backEdges _ _).mp ⟨loop, hloop, rfl, rfl⟩
  rcases (h.members loop hloop b).mp hb with rfl | havoid
  · exact Dominates.refl _ _ _
  · exact havoid.dominates hback.2

theorem LoopsExact.isReached (hloop : loop ∈ result.naturalLoops) (hb : b ∈ loop.members) :
    IsReached graph.IsEntry graph.Edge b := by
  obtain ⟨hback, _⟩ := (h.backEdges _ _).mp ⟨loop, hloop, rfl, rfl⟩
  have hreach : graph.IsReachable b := by
    rcases (h.members loop hloop b).mp hb with rfl | havoid
    · exact hback.1.next hback.2
    · rcases Relation.ReflTransGen.cases_head havoid.2 with rfl | ⟨_, hedge, _⟩
      · exact hback.1
      · exact hedge.1.1
  have hreached := (forward_direction hreach.1).reached b (mem_reachableIds.mpr hreach)
  have hedges := @forward_edge graph
  unfold InputEdge at hedges
  rwa [forward_roots, hedges] at hreached

/-- A loop has all of each loop whose header it has as a block of its own. -/
theorem LoopsExact.nests (houter : outer ∈ result.naturalLoops) (hinner : inner ∈ result.naturalLoops)
    (hne : outer.header ≠ inner.header) {x : ControlFlowBlockId} (hx : x ∈ outer.members)
    (hx' : x ∈ inner.members) (habove : Dominates graph.IsEntry graph.Edge outer.header inner.header) :
    ∀ b ∈ inner.members, b ∈ outer.members := by
  have hstrict : StrictlyDominates graph.IsEntry graph.Edge outer.header inner.header := ⟨hne, habove⟩
  -- the inner loop does not have the outer header
  have hoff : ∀ b ∈ inner.members, b ≠ outer.header := by
    rintro b hb rfl
    exact hne (habove.antisymm (h.dominates hinner hb) (h.isReached hinner hb))
  have hlatch : graph.ReachesAvoiding outer.header x outer.latch :=
    ((h.members outer houter x).mp hx).resolve_left (hoff x hx')
  have hheader : graph.ReachesAvoiding outer.header inner.header outer.latch :=
    ⟨hne.symm, (hstrict.leads (h.dominates hinner hx') (h.isReached hinner hx')).trans hlatch.2⟩
  obtain ⟨hback, _⟩ := (h.backEdges _ _).mp ⟨inner, hinner, rfl, rfl⟩
  have hmember : ∀ {b}, graph.ReachesAvoiding inner.header b inner.latch → b ≠ outer.header := fun havoid =>
    hoff _ ((h.members inner hinner _).mpr (Or.inr havoid))
  intro b hb
  rw [h.members outer houter]
  right
  rcases (h.members inner hinner b).mp hb with rfl | ⟨hb, hreach⟩
  · exact hheader
  · induction hreach using Relation.ReflTransGen.head_induction_on with
    | refl => exact hheader.step hback (hmember ⟨hb, .refl⟩)
    | @head b next hedge hrest ih =>
        have hrest' := (h.members inner hinner next).mpr (Or.inr ⟨hedge.2, hrest⟩)
        exact (ih hrest' hedge.2).step hedge.1 (hmember ⟨hb, hrest.head hedge⟩)

theorem LoopsExact.nested (hleft : outer ∈ result.naturalLoops) (hright : inner ∈ result.naturalLoops)
    (hne : outer.header ≠ inner.header) : (∀ b ∈ outer.members, b ∉ inner.members) ∨
      (∀ b ∈ outer.members, b ∈ inner.members) ∨ ∀ b ∈ inner.members, b ∈ outer.members := by
  by_cases hcommon : ∃ x ∈ outer.members, x ∈ inner.members
  · obtain ⟨x, hx, hx'⟩ := hcommon
    right
    rcases dominates_total (h.dominates hleft hx) (h.dominates hright hx') (h.isReached hleft hx) with habove | habove
    · exact Or.inr (h.nests hleft hright hne hx hx' habove)
    · exact Or.inl (h.nests hright hleft hne.symm hx' hx habove)
  · left
    push Not at hcommon
    exact hcommon

end Nested

theorem mem_loopHeaders {loops : List NaturalLoop} {facts : DominanceBlockFacts} :
    header ∈ (loopFactsOf loops facts).loopHeaders ↔
      ∃ loop ∈ loops, loop.header = header ∧ facts.block ∈ loop.members := by
  unfold loopFactsOf
  simp only [Library.Catalog.mem_sortedUnique, List.mem_map, List.mem_filter, decide_eq_true_eq]
  constructor
  · rintro ⟨loop, ⟨hloop, hmem⟩, rfl⟩
    exact ⟨loop, hloop, rfl, hmem⟩
  · rintro ⟨loop, hloop, rfl, hmem⟩
    exact ⟨loop, ⟨hloop, hmem⟩, rfl⟩

end ControlFlowGraph

open ControlFlowGraph

/-- The result of a graph with its entry, whatever number of passes it is given beyond those it needs. -/
theorem analyzeLoops_settles {graph : ControlFlowGraph} (hentry : graph.entry ∈ graph.blockIds) :
    ∃ dominance dominators, graph.ExactDominators dominators ∧ ∃ enough, ∀ steps ≥ enough,
      analyzeLoops graph steps = some (loopResultOf graph dominance dominators) := by
  obtain ⟨dominance, ⟨enough, hdominance⟩, forward, post?, hmade⟩ := analyzeDominance_settles hentry
  obtain ⟨dominators, hexact, enough', hdominators⟩ := computeDominatingSets_settles hentry
  refine ⟨dominance, dominators, hexact, max enough enough', fun steps hsteps => ?_⟩
  have hflow : dominance.controlFlow = analyzeControlFlow graph := by
    rw [hmade.result_eq]
    rfl
  unfold analyzeLoops
  rw [hdominance steps (le_trans (le_max_left _ _) hsteps), Option.bind_eq_bind, Option.bind_some, hflow]
  dsimp only
  rw [if_neg (reachableIds_ne_empty hentry), hdominators steps (le_trans (le_max_right _ _) hsteps)]
  rfl

/-- **The loop analysis is exact and misses no cycle.** A loop has the header, what reaches its latch without
the header, and the targets of the edges that leave it. A cycle is in loops with a header on it, or in an
irreducible region, or it has no header of its own and is in a loop of the header of its component. -/
theorem analyzeLoops_exact (graph : ControlFlowGraph) :
    ∃ result, (∃ enough, ∀ steps ≥ enough, analyzeLoops graph steps = some result) ∧
      graph.LoopsExact result := by
  by_cases hentry : graph.entry ∈ graph.blockIds
  · obtain ⟨dominance, dominators, hexact, hsettles⟩ := analyzeLoops_settles hentry
    exact ⟨loopResultOf graph dominance dominators, hsettles, loopsExact_loopResultOf dominance hexact⟩
  · have hnone : ∀ block, ¬ graph.IsReachable block := fun _ hreach => hentry hreach.1
    have hempty : reachableIds (analyzeControlFlow graph) = ∅ :=
      Finset.eq_empty_of_forall_notMem fun block hmem => hnone block (mem_reachableIds.mp hmem)
    let dominance : DominanceResult := ⟨analyzeControlFlow graph,
      (analyzeControlFlow graph).facts.map fun facts => ⟨facts.block, false, none, none, [], [], [], []⟩, [], false⟩
    refine ⟨⟨dominance, dominance.facts.map (loopFactsOf []), [], []⟩, ⟨0, fun steps _ => ?_⟩, ?_⟩
    · unfold analyzeLoops analyzeDominance
      dsimp only
      rw [if_pos hempty, Option.bind_eq_bind, Option.bind_some]
      dsimp only
      rw [if_pos hempty]
    · constructor
      · intro header latch
        refine ⟨?_, fun h => absurd h.1.1 (hnone latch)⟩
        rintro ⟨loop, hloop, _⟩
        cases hloop
      · intro loop hloop
        cases hloop
      · intro loop hloop
        cases hloop
      · intro region hregion
        cases hregion
      · intro cycle hcycle
        cases cycle with
        | nil => exact absurd hcycle id
        | cons first rest =>
            obtain ⟨next, hedge, _⟩ := Relation.TransGen.head'_iff.mp
              (hcycle.leads List.mem_cons_self List.mem_cons_self)
            exact absurd hedge.1 (hnone first)

/-- A cycle of two blocks that the entry leads into both of, and that leads back to the entry. -/
def nestedCycle : ControlFlowGraph := ⟨0, [⟨0, [1, 2]⟩, ⟨1, [0, 2]⟩, ⟨2, [1]⟩]⟩

theorem nestedCycle_reachable {block : ControlFlowBlockId} :
    nestedCycle.IsReachable block ↔ block = 0 ∨ block = 1 ∨ block = 2 := by
  have horder : nestedCycle.traversal.preorder = [0, 1, 2] := by decide
  rw [← mem_preorder, horder]
  simp

theorem nestedCycle_edge {source target : ControlFlowBlockId} :
    nestedCycle.Edge source target ↔
      (source, target) ∈ [((0 : Nat), (1 : Nat)), (0, 2), (1, 0), (1, 2), (2, 1)] := by
  unfold Edge
  rw [nestedCycle_reachable]
  constructor
  · rintro ⟨rfl | rfl | rfl, hedge⟩
    · have hmem : target ∈ [1, 2] := hedge
      simpa using hmem
    · have hmem : target ∈ [0, 2] := hedge
      simpa using hmem
    · have hmem : target ∈ [1] := hedge
      simpa using hmem
  · intro hmem
    simp only [List.mem_cons, Prod.mk.injEq, List.not_mem_nil, or_false] at hmem
    rcases hmem with ⟨rfl, rfl⟩ | ⟨rfl, rfl⟩ | ⟨rfl, rfl⟩ | ⟨rfl, rfl⟩ | ⟨rfl, rfl⟩ <;> exact ⟨by simp, by decide⟩

/-- The header of its loop is not on the cycle, and there is no region. -/
theorem not_covered_nestedCycle : nestedCycle.IsCycle [1, 2] ∧ ∃ result,
    (∃ enough, ∀ steps ≥ enough, analyzeLoops nestedCycle steps = some result) ∧
      ¬ ((∃ loop ∈ result.naturalLoops, loop.header ∈ [1, 2] ∧ ∀ b ∈ [1, 2], b ∈ loop.members) ∨
        ∃ region ∈ result.irreducibleRegions, ∀ b ∈ [1, 2], b ∈ region.members) := by
  have hentry : nestedCycle.entry ∈ nestedCycle.blockIds := by decide
  obtain ⟨dominance, dominators, hdominators, hsettles⟩ := analyzeLoops_settles hentry
  have hexact := loopsExact_loopResultOf dominance hdominators
  have hedge : ∀ {source target}, (source, target) ∈ [((0 : Nat), (1 : Nat)), (0, 2), (1, 0), (1, 2), (2, 1)] →
      nestedCycle.Edge source target := fun h => nestedCycle_edge.mpr h
  have hstart : Walk nestedCycle.IsEntry nestedCycle.Edge 0 [0] := .root rfl
  have hcycle : nestedCycle.IsCycle [1, 2] :=
    List.isChain_cons_cons.mpr ⟨hedge (by decide),
      List.isChain_cons_cons.mpr ⟨hedge (by decide), List.isChain_singleton 1⟩⟩
  refine ⟨hcycle, _, hsettles, ?_⟩
  rintro (⟨loop, hloop, hheader, _⟩ | ⟨region, hregion, hmem⟩)
  · -- neither block dominates the source of an edge to it
    obtain ⟨hback, hdominates⟩ := (hexact.backEdges loop.header loop.latch).mp ⟨loop, hloop, rfl, rfl⟩
    generalize loop.header = header at hheader hback hdominates
    generalize loop.latch = latch at hback hdominates
    have hback := nestedCycle_edge.mp hback
    simp only [List.mem_cons, Prod.mk.injEq, List.not_mem_nil, or_false] at hback
    rcases hback with ⟨rfl, rfl⟩ | ⟨rfl, rfl⟩ | ⟨rfl, rfl⟩ | ⟨rfl, rfl⟩ | ⟨rfl, rfl⟩
    · exact absurd (hdominates [0] hstart) (by decide)
    · exact absurd (hdominates [0] hstart) (by decide)
    · exact absurd hheader (by decide)
    · exact absurd (hdominates [0, 1] (hstart.step (hedge (by decide)))) (by decide)
    · exact absurd (hdominates [0, 2] (hstart.step (hedge (by decide)))) (by decide)
  · -- the entry is in the component and dominates it
    obtain ⟨root, _, hcomponent⟩ := (hexact.regions region hregion).component
    have hroot := (hcomponent 1).mp (hmem 1 (by decide))
    have hzero : 0 ∈ region.members := (hcomponent 0).mpr
      ⟨hroot.1.head (hedge (by decide)), hroot.2.tail (hedge (by decide))⟩
    refine (hexact.regions region hregion).headless ⟨0, hzero, ?_⟩
    intro b hb path hpath
    clear hb
    induction hpath with
    | root hfirst =>
        rw [hfirst]
        exact List.mem_singleton_self _
    | step _ _ ih => exact List.mem_append_left _ ih

/-- **The loops of a graph nest.** Natural loops of different headers have no block in common or one has all
blocks of the other, the header of a loop dominates all of it, and a block is given the headers of its loops. -/
theorem analyzeLoops_nested (graph : ControlFlowGraph) :
    ∃ result, (∃ enough, ∀ steps ≥ enough, analyzeLoops graph steps = some result) ∧
      graph.LoopsNested result := by
  by_cases hentry : graph.entry ∈ graph.blockIds
  · obtain ⟨dominance, dominators, hexact, hsettles⟩ := analyzeLoops_settles hentry
    have hloops := loopsExact_loopResultOf dominance hexact
    refine ⟨loopResultOf graph dominance dominators, hsettles, fun _ hloop _ => hloops.dominates hloop,
      fun _ hleft _ hright => hloops.nested hleft hright, fun facts hfacts header => ?_⟩
    obtain ⟨_, _, rfl⟩ := List.mem_map.mp hfacts
    exact mem_loopHeaders
  · have hempty : reachableIds (analyzeControlFlow graph) = ∅ :=
      Finset.eq_empty_of_forall_notMem fun block hmem => hentry (mem_reachableIds.mp hmem).1
    let dominance : DominanceResult := ⟨analyzeControlFlow graph,
      (analyzeControlFlow graph).facts.map fun facts => ⟨facts.block, false, none, none, [], [], [], []⟩, [], false⟩
    refine ⟨⟨dominance, dominance.facts.map (loopFactsOf []), [], []⟩, ⟨0, fun steps _ => ?_⟩, ⟨?_, ?_, ?_⟩⟩
    · unfold analyzeLoops analyzeDominance
      dsimp only
      rw [if_pos hempty, Option.bind_eq_bind, Option.bind_some]
      dsimp only
      rw [if_pos hempty]
    · exact fun _ hloop => nomatch hloop
    · exact fun _ hloop => nomatch hloop
    · intro facts hfacts header
      obtain ⟨_, _, rfl⟩ := List.mem_map.mp hfacts
      exact mem_loopHeaders

end Tala.Analysis
