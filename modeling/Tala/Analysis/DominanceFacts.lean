import Tala.Analysis.Dominance
import Tala.Library.Dominators

/-!
# `Analysis.DominanceFacts` — the dominance facts are exact

The passes, the choice of the immediate parent and the walk that fills the frontiers are proved once, for
a direction: nodes, roots and the inputs of each node (`Direction`). Forward the root is the entry and
the inputs are the predecessors, backward the roots are the exits and the inputs are the successors.

A join with fewer than two inputs adds nothing to a frontier. For a node that is no root that is what the
definition of a frontier says (`not_inFrontier_of_single`); a root has one input more than the graph
shows, so it is left out when the graph shows one.
-/

namespace Tala.Analysis

open Library.Dataflow Library.Dominators

namespace Dominance

/-- The graph as one direction of the analysis sees it. -/
structure Direction (nodes : BlockSet) (roots : List ControlFlowBlockId)
    (inputs : ControlFlowBlockId → List ControlFlowBlockId) : Prop where
  rootNodes : ∀ root ∈ roots, root ∈ nodes
  inputNodes : ∀ node, ∀ input ∈ inputs node, input ∈ nodes ∧ node ∈ nodes
  nodup : ∀ node, (inputs node).Nodup
  reached : ∀ node ∈ nodes, IsReached (· ∈ roots) (fun input node => input ∈ inputs node) node

section Direction

variable {nodes : BlockSet} {roots : List ControlFlowBlockId}
  {inputs : ControlFlowBlockId → List ControlFlowBlockId} {sets : ControlFlowBlockId → BlockSet}
  {node a : ControlFlowBlockId}

/-- An edge from an input to the node that has it. -/
abbrev InputEdge (inputs : ControlFlowBlockId → List ControlFlowBlockId) (input node : ControlFlowBlockId) :
    Prop := input ∈ inputs node

theorem Direction.node_of_reached (h : Direction nodes roots inputs)
    (hreached : IsReached (· ∈ roots) (InputEdge inputs) node) : node ∈ nodes := by
  obtain ⟨path, hpath⟩ := hreached
  cases hpath with
  | root hroot => exact h.rootNodes node hroot
  | step _ hedge => exact (h.inputNodes node _ hedge).2

/-! ## Dominating sets -/

theorem mem_foldl_inputs (rest : List ControlFlowBlockId) (hrest : ∀ input ∈ rest, input ∈ nodes)
    (start : BlockSet) :
    a ∈ rest.foldl (fun result input => if input ∈ nodes then result ∩ sets input else ∅) start ↔
      a ∈ start ∧ ∀ input ∈ rest, a ∈ sets input := by
  induction rest generalizing start with
  | nil => simp
  | cons first rest ih =>
      rw [List.foldl_cons, if_pos (hrest first List.mem_cons_self),
        ih fun input hinput => hrest input (List.mem_cons_of_mem _ hinput), Finset.mem_inter,
        List.forall_mem_cons, and_assoc]

/-- The equation of a node that is no root. -/
theorem mem_dominatingSet (hroot : node ∉ roots) (hinputs : ∀ input ∈ inputs node, input ∈ nodes) :
    a ∈ dominatingSet nodes roots inputs sets node ↔
      a = node ∨ (inputs node ≠ [] ∧ ∀ input ∈ inputs node, a ∈ sets input) := by
  unfold dominatingSet
  rw [if_neg hroot]
  cases hincoming : inputs node with
  | nil => simp
  | cons first rest =>
      rw [hincoming] at hinputs
      dsimp only
      rw [Finset.mem_insert, intersectInputs,
        mem_foldl_inputs rest fun input hinput => hinputs input (List.mem_cons_of_mem _ hinput),
        if_pos (hinputs first List.mem_cons_self), ← List.forall_mem_cons (p := fun input => a ∈ sets input)]
      simp

theorem dominatingSet_mono (hinputs : ∀ node, ∀ input ∈ inputs node, input ∈ nodes)
    {sets' : ControlFlowBlockId → BlockSet} (h : ∀ node, sets node ⊆ sets' node) (node : ControlFlowBlockId) :
    dominatingSet nodes roots inputs sets node ⊆ dominatingSet nodes roots inputs sets' node := by
  by_cases hroot : node ∈ roots
  · unfold dominatingSet
    rw [if_pos hroot, if_pos hroot]
    exact h node
  · intro a ha
    rw [mem_dominatingSet hroot (hinputs node)] at ha ⊢
    exact ha.imp id fun hall => ⟨hall.1, fun input hinput => h input (hall.2 input hinput)⟩

theorem dominatingSet_start (h : Direction nodes roots inputs) (hnode : node ∈ nodes) :
    dominatingSet nodes roots inputs (startSet nodes roots) node ⊆ startSet nodes roots node := by
  by_cases hroot : node ∈ roots
  · unfold dominatingSet
    rw [if_pos hroot]
  · intro a ha
    rw [mem_dominatingSet hroot fun input hinput => (h.inputNodes node input hinput).1] at ha
    unfold startSet
    rw [if_neg hroot]
    rcases ha with rfl | ⟨hne, hall⟩
    · exact hnode
    · obtain ⟨input, hinput⟩ := List.exists_mem_of_ne_nil _ hne
      have hstart := hall input hinput
      have hinputNode := (h.inputNodes node input hinput).1
      unfold startSet at hstart
      split at hstart
      · rw [Finset.mem_singleton.mp hstart]
        exact hinputNode
      · exact hstart

/-- In the order of the passes smaller sets are more. -/
theorem dominatingSet_rises (h : Direction nodes roots inputs) (order : List ControlFlowBlockId)
    (horder : ∀ node, node ∈ order ↔ node ∈ nodes) :
    @Rises ControlFlowBlockId BlockSetᵒᵈ _ ⟨dominatingSet nodes roots inputs, fun _ => []⟩ order
      (startSet nodes roots) (startSet nodes roots) :=
  @sound_start ControlFlowBlockId BlockSetᵒᵈ _ _ order _ order (fun _ => Iff.rfl)
    fun node hnode => dominatingSet_start h ((horder node).mp hnode)

theorem dominatingSet_monotone (h : Direction nodes roots inputs) :
    @Monotone (ControlFlowBlockId → BlockSetᵒᵈ) (ControlFlowBlockId → BlockSetᵒᵈ) _ _
      (dominatingSet nodes roots inputs) :=
  fun _ _ hle node => dominatingSet_mono (fun node input hinput => (h.inputNodes node input hinput).1)
    (fun node => hle node) node

variable {order : List ControlFlowBlockId}

/-- **The passes end.** -/
theorem computeDominatingSets_isSome (h : Direction nodes roots inputs)
    (horder : ∀ node, node ∈ order ↔ node ∈ nodes) :
    ∃ enough, ∀ steps ≥ enough, ∃ sets,
      computeDominatingSets nodes roots inputs order steps = some sets :=
  @Rises.passes_isSome ControlFlowBlockId BlockSetᵒᵈ _ _ _ _ _ _ _ _ _ (dominatingSet_monotone h)
    (fun _ => Iff.rfl) (dominatingSet_rises h order horder)

/-- A reached node that is no root has an input. -/
theorem Direction.inputs_ne_nil (h : Direction nodes roots inputs) (hnode : node ∈ nodes)
    (hroot : node ∉ roots) : inputs node ≠ [] := by
  obtain ⟨path, hpath⟩ := h.reached node hnode
  cases hpath with
  | root hroot' => exact absurd hroot' hroot
  | step _ hedge => exact List.ne_nil_of_mem hedge

open Classical in
/-- The dominators of a node, as a set. -/
noncomputable def dominatorSet (nodes : BlockSet) (roots : List ControlFlowBlockId)
    (inputs : ControlFlowBlockId → List ControlFlowBlockId) (node : ControlFlowBlockId) : BlockSet :=
  nodes.filter fun a => Dominates (· ∈ roots) (InputEdge inputs) a node

theorem mem_dominatorSet : a ∈ dominatorSet nodes roots inputs node ↔
    a ∈ nodes ∧ Dominates (· ∈ roots) (InputEdge inputs) a node := by
  simp [dominatorSet]

theorem dominatorSet_start (node : ControlFlowBlockId) :
    dominatorSet nodes roots inputs node ⊆ startSet nodes roots node := by
  intro a ha
  rw [mem_dominatorSet] at ha
  unfold startSet
  by_cases hroot : node ∈ roots
  · rw [if_pos hroot, Finset.mem_singleton]
    exact (dominates_root hroot).mp ha.2
  · rw [if_neg hroot]
    exact ha.1

theorem dominatorSet_closed (h : Direction nodes roots inputs) (hnode : node ∈ nodes) :
    dominatorSet nodes roots inputs node
      ⊆ dominatingSet nodes roots inputs (dominatorSet nodes roots inputs) node := by
  intro a ha
  by_cases hroot : node ∈ roots
  · unfold dominatingSet
    rw [if_pos hroot]
    exact ha
  · rw [mem_dominatorSet] at ha
    rw [mem_dominatingSet hroot fun input hinput => (h.inputNodes node input hinput).1]
    rcases (dominates_iff hroot).mp ha.2 with heq | hall
    · exact Or.inl heq
    · refine Or.inr ⟨h.inputs_ne_nil hnode hroot, fun input hinput => ?_⟩
      exact mem_dominatorSet.mpr ⟨ha.1, hall input hinput⟩

/-- **The sets are those of the dominators.** -/
theorem mem_computeDominatingSets (h : Direction nodes roots inputs)
    (horder : ∀ node, node ∈ order ↔ node ∈ nodes) {steps : Nat}
    (hsets : computeDominatingSets nodes roots inputs order steps = some sets) (hnode : node ∈ nodes) :
    a ∈ sets node ↔ Dominates (· ∈ roots) (InputEdge inputs) a node := by
  have hleast := @Rises.passes_isLeastSolution ControlFlowBlockId BlockSetᵒᵈ _ _ _ _ _ _ _ _
    (dominatingSet_monotone h) (fun _ => Iff.rfl) _ _ (dominatingSet_rises h order horder) hsets
  constructor
  · intro ha
    refine dominates_of_closed sets (fun root hroot a ha => ?_) ?_ ha
    · have hstart : a ∈ startSet nodes roots root := hleast.above root ha
      unfold startSet at hstart
      rw [if_pos hroot] at hstart
      exact Finset.mem_singleton.mp hstart
    · intro source node hedge _ hroot a ha
      have hmem := (h.inputNodes node source hedge).2
      have hsolved : sets node = dominatingSet nodes roots inputs sets node :=
        hleast.solves node ((horder node).mpr hmem)
      rw [hsolved, mem_dominatingSet hroot fun input hinput => (h.inputNodes node input hinput).1] at ha
      exact ha.imp id fun hall => hall.2 source hedge
  · intro ha
    have hbelow := hleast.least (dominatorSet nodes roots inputs) (fun node => dominatorSet_start node)
      fun node hmem => dominatorSet_closed h ((horder node).mp hmem)
    have hreached := ha.isReached (h.reached node hnode)
    exact hbelow node (mem_dominatorSet.mpr ⟨h.node_of_reached hreached, ha⟩)

/-! ## Immediate parents -/

/-- The chosen candidate is one of them and has the most dominators. -/
theorem nearest_spec (sets : ControlFlowBlockId → BlockSet) (candidates : List ControlFlowBlockId) :
    (candidates = [] ∧ nearest sets candidates = (none, 0)) ∨
      ∃ best ∈ candidates, nearest sets candidates = (some best, (sets best).card) ∧
        ∀ other ∈ candidates, (sets other).card ≤ (sets best).card := by
  induction candidates using List.reverseRecOn with
  | nil => exact Or.inl ⟨rfl, rfl⟩
  | append_singleton candidates candidate ih =>
      right
      unfold nearest at ih ⊢
      rw [List.foldl_append, List.foldl_cons, List.foldl_nil]
      rcases ih with ⟨rfl, hnone⟩ | ⟨best, hbest, hsome, hgreatest⟩
      · rw [hnone]
        refine ⟨candidate, List.mem_append_right _ (List.mem_singleton_self _), rfl, ?_⟩
        intro other hother
        rw [List.nil_append, List.mem_singleton] at hother
        rw [hother]
      · rw [hsome]
        by_cases hdeeper : (sets candidate).card > (sets best).card
        · refine ⟨candidate, List.mem_append_right _ (List.mem_singleton_self _), ?_, ?_⟩
          · simp [hdeeper]
          · intro other hother
            rcases List.mem_append.mp hother with hother | hother
            · exact (hgreatest other hother).trans hdeeper.le
            · rw [List.mem_singleton.mp hother]
        · refine ⟨best, List.mem_append_left _ hbest, ?_, ?_⟩
          · simp [hdeeper]
          · intro other hother
            rcases List.mem_append.mp hother with hother | hother
            · exact hgreatest other hother
            · rw [List.mem_singleton.mp hother]
              exact Nat.not_lt.mp hdeeper

/-- What the sets of a direction hold. -/
def ExactSets (nodes : BlockSet) (roots : List ControlFlowBlockId)
    (inputs : ControlFlowBlockId → List ControlFlowBlockId) (sets : ControlFlowBlockId → BlockSet) : Prop :=
  ∀ node ∈ nodes, ∀ a, a ∈ sets node ↔ Dominates (· ∈ roots) (InputEdge inputs) a node

theorem mem_toVector {values : BlockSet} : a ∈ toVector values ↔ a ∈ values := by
  unfold toVector
  exact Finset.mem_sort _

/-- The immediate dominator of a node, or its absence. -/
def IsParent (roots : ControlFlowBlockId → Prop) (edge : ControlFlowBlockId → ControlFlowBlockId → Prop)
    (parent : Option ControlFlowBlockId) (node : ControlFlowBlockId) : Prop :=
  (parent = none ∧ ∀ a, ¬ StrictlyDominates roots edge a node) ∨
    ∃ immediate, parent = some immediate ∧ IsImmediate roots edge immediate node

/-- **The parent of a node is its immediate dominator**, when it has a strict one. -/
theorem immediateParent_spec (h : Direction nodes roots inputs) (hsets : ExactSets nodes roots inputs sets)
    (hnode : node ∈ nodes) :
    IsParent (· ∈ roots) (InputEdge inputs) (immediateParent roots sets node) node := by
  unfold immediateParent
  by_cases hroot : node ∈ roots
  · rw [if_pos hroot]
    left
    refine ⟨rfl, ?_⟩
    rintro a ⟨hne, ha⟩
    exact hne ((dominates_root hroot).mp ha)
  · rw [if_neg hroot]
    have hstrict : ∀ a, a ∈ toVector ((sets node).erase node) ↔
        StrictlyDominates (· ∈ roots) (InputEdge inputs) a node := by
      intro a
      rw [mem_toVector, Finset.mem_erase, hsets node hnode]
      rfl
    rcases nearest_spec sets (toVector ((sets node).erase node)) with ⟨hnil, hnone⟩ |
      ⟨best, hbest, hsome, hgreatest⟩
    · left
      rw [hnone]
      refine ⟨rfl, fun a ha => ?_⟩
      have hmem := (hstrict a).mpr ha
      rw [hnil] at hmem
      exact List.not_mem_nil hmem
    · right
      rw [hsome]
      refine ⟨best, rfl, ?_⟩
      refine isImmediate_of_greatest sets
        (fun node hreached a => hsets node (h.node_of_reached hreached) a) (h.reached node hnode)
        ((hstrict best).mp hbest) fun other hother => hgreatest other ((hstrict other).mpr hother)

/-! ## Frontiers -/

@[simp] theorem runners_none (parents : ControlFlowBlockId → Option ControlFlowBlockId)
    (stop : Option ControlFlowBlockId) (fuel : Nat) (visited : List ControlFlowBlockId) :
    runners parents stop fuel visited none = [] := by
  cases fuel <;> rfl

/-- **A runner collects what dominates it without strictly dominating the join.** The way up the parents
meets the one to stop at, and no node twice. -/
theorem mem_runners (h : Direction nodes roots inputs) (hsets : ExactSets nodes roots inputs sets)
    {parents : ControlFlowBlockId → Option ControlFlowBlockId}
    (hparents : ∀ node ∈ nodes, IsParent (· ∈ roots) (InputEdge inputs) (parents node) node)
    {join : ControlFlowBlockId} {stop : Option ControlFlowBlockId}
    (hstop : IsParent (· ∈ roots) (InputEdge inputs) stop join)
    {fuel : Nat} {visited : List ControlFlowBlockId} {runner : ControlFlowBlockId} (hrunner : runner ∈ nodes)
    (habove : ∀ parent, stop = some parent → Dominates (· ∈ roots) (InputEdge inputs) parent runner)
    (hvisited : ∀ v ∈ visited, v ∈ nodes ∧ StrictlyDominates (· ∈ roots) (InputEdge inputs) runner v)
    (hfuel : (sets runner).card ≤ fuel) :
    a ∈ runners parents stop fuel visited (some runner) ↔
      Dominates (· ∈ roots) (InputEdge inputs) a runner ∧
        ¬ StrictlyDominates (· ∈ roots) (InputEdge inputs) a join := by
  induction fuel generalizing visited runner with
  | zero =>
      have hself : runner ∈ sets runner := (hsets runner hrunner runner).mpr (Dominates.refl _ _ _)
      exact absurd (Finset.card_pos.mpr ⟨runner, hself⟩) (by omega)
  | succ fuel ih =>
      have hnew : runner ∉ visited := fun hmem => (hvisited runner hmem).2.1 rfl
      unfold runners
      by_cases hend : some runner = stop
      · rw [if_pos (Or.inl hend)]
        rcases hstop with ⟨hnone, _⟩ | ⟨parent, hsome, himmediate⟩
        · rw [hnone] at hend
          cases hend
        · rw [hsome] at hend
          obtain rfl := Option.some.inj hend
          refine ⟨fun hmem => absurd hmem List.not_mem_nil, fun ⟨ha, hnot⟩ => absurd ⟨?_, ?_⟩ hnot⟩
          · rintro rfl
            exact himmediate.1.1 (himmediate.1.2.antisymm ha (h.reached _ hrunner))
          · exact ha.trans himmediate.1.2
      · rw [if_neg (not_or.mpr ⟨hend, hnew⟩), List.mem_cons]
        have hkept : ¬ StrictlyDominates (· ∈ roots) (InputEdge inputs) runner join := by
          rcases hstop with ⟨_, hno⟩ | ⟨parent, hsome, himmediate⟩
          · exact hno runner
          · intro hstrict
            have hsame := (himmediate.2 runner hstrict).antisymm (habove parent hsome) (h.reached _ hrunner)
            exact hend (by rw [hsame, hsome])
        rcases hparents runner hrunner with ⟨hnone, hno⟩ | ⟨parent, hsome, himmediate⟩
        · rw [hnone, runners_none]
          constructor
          · rintro (rfl | hmem)
            · exact ⟨Dominates.refl _ _ _, hkept⟩
            · exact absurd hmem List.not_mem_nil
          · rintro ⟨ha, _⟩
            left
            by_contra hne
            exact hno a ⟨hne, ha⟩
        · rw [hsome, ih]
          · rw [himmediate.dominates_iff]
            constructor
            · rintro (rfl | ⟨ha, hnot⟩)
              · exact ⟨Or.inl rfl, hkept⟩
              · exact ⟨Or.inr ha, hnot⟩
            · rintro ⟨rfl | ha, hnot⟩
              · exact Or.inl rfl
              · exact Or.inr ⟨ha, hnot⟩
          · exact h.node_of_reached (himmediate.1.2.isReached (h.reached _ hrunner))
          · intro above habove'
            refine himmediate.2 above ⟨fun heq => hend ?_, habove above habove'⟩
            rw [← heq, habove']
          · intro v hv
            rcases List.mem_cons.mp hv with rfl | hv
            · exact ⟨hrunner, himmediate.1⟩
            · obtain ⟨hmem, hstrict⟩ := hvisited v hv
              exact ⟨hmem, himmediate.1.trans hstrict.2 (h.reached v hmem)⟩
          · have hless := card_lt_of_strictlyDominates sets
              (fun node hreached a => hsets node (h.node_of_reached hreached) a) himmediate.1
              (h.reached _ hrunner)
            omega

theorem mem_foldl_addJoin (join : ControlFlowBlockId) (list : List ControlFlowBlockId)
    (frontiers : ControlFlowBlockId → BlockSet) (a node : ControlFlowBlockId) :
    a ∈ list.foldl (addJoin join) frontiers node ↔ a ∈ frontiers node ∨ (a = join ∧ node ∈ list) := by
  induction list generalizing frontiers with
  | nil => simp
  | cons first rest ih =>
      rw [List.foldl_cons, ih]
      unfold addJoin
      by_cases heq : node = first
      · subst heq
        rw [Function.update_self, Finset.mem_insert]
        simp only [List.mem_cons, true_or, and_true]
        tauto
      · rw [Function.update_of_ne heq]
        simp [heq]

theorem mem_foldl_addRunners (parents : ControlFlowBlockId → Option ControlFlowBlockId)
    (join : ControlFlowBlockId) (list : List ControlFlowBlockId)
    (frontiers : ControlFlowBlockId → BlockSet) (a node : ControlFlowBlockId) :
    a ∈ list.foldl (addRunners nodes parents join) frontiers node ↔
      a ∈ frontiers node ∨ (a = join ∧ ∃ input ∈ list,
        node ∈ runners parents (parents join) nodes.card [] (some input)) := by
  induction list generalizing frontiers with
  | nil => simp
  | cons first rest ih =>
      rw [List.foldl_cons, ih, addRunners, mem_foldl_addJoin, List.exists_mem_cons_iff]
      tauto

/-- The joins of a frontier, by the runners that pass the node. -/
theorem mem_computeFrontiers (parents : ControlFlowBlockId → Option ControlFlowBlockId)
    (a node : ControlFlowBlockId) :
    a ∈ computeFrontiers nodes inputs parents node ↔
      a ∈ nodes ∧ 2 ≤ (inputs a).length ∧
        ∃ input ∈ inputs a, node ∈ runners parents (parents a) nodes.card [] (some input) := by
  have hfold : ∀ (list : List ControlFlowBlockId) (frontiers : ControlFlowBlockId → BlockSet),
      a ∈ list.foldl (fun frontiers join =>
        if (inputs join).length < 2 then frontiers
        else (inputs join).foldl (addRunners nodes parents join) frontiers) frontiers node ↔
      a ∈ frontiers node ∨ (a ∈ list ∧ 2 ≤ (inputs a).length ∧
        ∃ input ∈ inputs a, node ∈ runners parents (parents a) nodes.card [] (some input)) := by
    intro list
    induction list with
    | nil => simp
    | cons first rest ih =>
        intro frontiers
        rw [List.foldl_cons, ih, List.mem_cons]
        by_cases hfew : (inputs first).length < 2
        · rw [if_pos hfew]
          constructor
          · rintro (hmem | ⟨hmem, hcond⟩)
            · exact Or.inl hmem
            · exact Or.inr ⟨Or.inr hmem, hcond⟩
          · rintro (hmem | ⟨rfl | hmem, hcond⟩)
            · exact Or.inl hmem
            · exact absurd hfew (Nat.not_lt.mpr hcond.1)
            · exact Or.inr ⟨hmem, hcond⟩
        · rw [if_neg hfew, mem_foldl_addRunners]
          constructor
          · rintro ((hmem | ⟨rfl, hcond⟩) | ⟨hmem, hcond⟩)
            · exact Or.inl hmem
            · exact Or.inr ⟨Or.inl rfl, Nat.not_lt.mp hfew, hcond⟩
            · exact Or.inr ⟨Or.inr hmem, hcond⟩
          · rintro (hmem | ⟨rfl | hmem, hcond⟩)
            · exact Or.inl (Or.inl hmem)
            · exact Or.inl (Or.inr ⟨rfl, hcond.2⟩)
            · exact Or.inr ⟨hmem, hcond⟩
  unfold computeFrontiers
  rw [hfold, mem_toVector]
  simp

variable {join : ControlFlowBlockId} {relation : DominanceRelation}

/-- **The frontiers are those of the definition**, a root with a single input aside. -/
theorem mem_frontier (h : Direction nodes roots inputs) (hsets : ExactSets nodes roots inputs sets) :
    join ∈ computeFrontiers nodes inputs (immediateParent roots sets) node ↔
      InFrontier (· ∈ roots) (InputEdge inputs) node join ∧
        ¬ (join ∈ roots ∧ ∃ only, inputs join = [only]) := by
  rw [mem_computeFrontiers]
  have hrunners : ∀ input ∈ inputs join,
      (node ∈ runners (immediateParent roots sets) (immediateParent roots sets join) nodes.card []
        (some input) ↔ Dominates (· ∈ roots) (InputEdge inputs) node input ∧
          ¬ StrictlyDominates (· ∈ roots) (InputEdge inputs) node join) := by
    intro input hinput
    obtain ⟨hinputNode, hjoin⟩ := h.inputNodes join input hinput
    refine mem_runners h hsets (fun node hnode => immediateParent_spec h hsets hnode)
      (immediateParent_spec h hsets hjoin) hinputNode ?_
      (fun v hv => absurd hv List.not_mem_nil) ?_
    · intro parent hparent
      rcases immediateParent_spec h hsets hjoin with ⟨hnone, _⟩ | ⟨parent', hsome, himmediate⟩
      · rw [hnone] at hparent
        cases hparent
      · rw [hsome] at hparent
        obtain rfl := Option.some.inj hparent
        have hroot : join ∉ roots := by
          intro hroot
          exact himmediate.1.1 ((dominates_root hroot).mp himmediate.1.2)
        exact ((dominates_iff hroot).mp himmediate.1.2).resolve_left himmediate.1.1 input hinput
    · refine Finset.card_le_card fun a ha => ?_
      have hdominates := (hsets input hinputNode a).mp ha
      exact h.node_of_reached (hdominates.isReached (h.reached input hinputNode))
  constructor
  · rintro ⟨_, htwo, input, hinput, hmem⟩
    obtain ⟨hdominates, hnot⟩ := (hrunners input hinput).mp hmem
    refine ⟨⟨⟨input, hinput, hdominates⟩, hnot⟩, ?_⟩
    rintro ⟨_, only, hsingle⟩
    rw [hsingle] at htwo
    simp at htwo
  · rintro ⟨⟨⟨input, hinput, hdominates⟩, hnot⟩, hexcept⟩
    have hjoin := (h.inputNodes join input hinput).2
    refine ⟨hjoin, ?_, input, hinput, (hrunners input hinput).mpr ⟨hdominates, hnot⟩⟩
    by_contra hfew
    obtain ⟨only, hsingle⟩ : ∃ only, inputs join = [only] := by
      rw [← List.length_eq_one_iff]
      have := List.length_pos_of_mem hinput
      omega
    have hroot : join ∉ roots := fun hroot => hexcept ⟨hroot, only, hsingle⟩
    have honly : ∀ other, InputEdge inputs other join → other = only := by
      intro other hother
      have hmem : other ∈ inputs join := hother
      rw [hsingle] at hmem
      exact List.mem_singleton.mp hmem
    exact not_inFrontier_of_single hroot (h.reached join hjoin) honly ⟨⟨input, hinput, hdominates⟩, hnot⟩

/-! ## One direction -/

/-- A root into which the graph has exactly one edge. -/
def SingleInputRoot (roots : ControlFlowBlockId → Prop)
    (edge : ControlFlowBlockId → ControlFlowBlockId → Prop) (join : ControlFlowBlockId) : Prop :=
  roots join ∧ ∃ only, ∀ input, edge input join ↔ input = only

/-- Dominators, immediate dominators and frontiers as their definitions have them. -/
structure ExactRelation (nodes : BlockSet) (roots : ControlFlowBlockId → Prop)
    (edge : ControlFlowBlockId → ControlFlowBlockId → Prop) (relation : DominanceRelation) : Prop where
  dominators : ∀ node ∈ nodes, ∀ a, a ∈ relation.dominators node ↔ Dominates roots edge a node
  parents : ∀ node ∈ nodes, ∀ a, relation.parents node = some a ↔ IsImmediate roots edge a node
  frontiers : ∀ node ∈ nodes, ∀ join, join ∈ relation.frontiers node ↔
    InFrontier roots edge node join ∧ ¬ SingleInputRoot roots edge join

/-- The definitions leave no choice. -/
theorem ExactRelation.unique {roots : ControlFlowBlockId → Prop}
    {edge : ControlFlowBlockId → ControlFlowBlockId → Prop} {relation relation' : DominanceRelation}
    (h : ExactRelation nodes roots edge relation) (h' : ExactRelation nodes roots edge relation')
    (hnode : node ∈ nodes) :
    relation'.dominators node = relation.dominators node ∧
      relation'.parents node = relation.parents node ∧
      relation'.frontiers node = relation.frontiers node := by
  refine ⟨Finset.ext fun a => ?_, Option.ext fun a => ?_, Finset.ext fun a => ?_⟩
  · rw [h.dominators node hnode, h'.dominators node hnode]
  · rw [h.parents node hnode, h'.parents node hnode]
  · rw [h.frontiers node hnode, h'.frontiers node hnode]

theorem inputs_eq_singleton_iff (h : Direction nodes roots inputs) {only : ControlFlowBlockId} :
    inputs join = [only] ↔ ∀ input, input ∈ inputs join ↔ input = only := by
  constructor
  · intro heq input
    rw [heq, List.mem_singleton]
  · intro hall
    have hperm : (inputs join).Perm [only] := by
      rw [List.perm_ext_iff_of_nodup (h.nodup join) (List.nodup_singleton only)]
      intro input
      rw [hall, List.mem_singleton]
    exact List.perm_singleton.mp hperm

theorem computeRelation_exact (h : Direction nodes roots inputs)
    (horder : ∀ node, node ∈ order ↔ node ∈ nodes) {steps : Nat}
    (hrelation : computeRelation nodes roots inputs order steps = some relation) :
    ExactRelation nodes (· ∈ roots) (InputEdge inputs) relation := by
  obtain ⟨sets, hcompute, rfl⟩ := Option.map_eq_some_iff.mp hrelation
  have hsets : ExactSets nodes roots inputs sets := fun node hnode a =>
    mem_computeDominatingSets h horder hcompute hnode
  refine ⟨hsets, fun node hnode a => ?_, fun node hnode join => ?_⟩
  · show immediateParent roots sets node = some a ↔ _
    rcases immediateParent_spec h hsets hnode with ⟨hnone, hno⟩ | ⟨parent, hsome, himmediate⟩
    · rw [hnone]
      exact ⟨fun hfalse => absurd hfalse (by simp), fun ha => absurd ha.1 (hno a)⟩
    · rw [hsome, Option.some_inj]
      constructor
      · rintro rfl
        exact himmediate
      · intro ha
        exact himmediate.unique ha (h.reached node hnode)
  · show join ∈ computeFrontiers nodes inputs (immediateParent roots sets) node ↔ _
    rw [mem_frontier h hsets]
    unfold SingleInputRoot
    simp only [inputs_eq_singleton_iff h]

theorem computeRelation_isSome (h : Direction nodes roots inputs) (horder : ∀ node, node ∈ order ↔ node ∈ nodes) :
    ∃ enough, ∀ steps ≥ enough, ∃ relation,
      computeRelation nodes roots inputs order steps = some relation := by
  obtain ⟨enough, hended⟩ := computeDominatingSets_isSome h horder
  refine ⟨enough, fun steps hsteps => ?_⟩
  obtain ⟨sets, hsets⟩ := hended steps hsteps
  exact ⟨_, Option.map_eq_some_iff.mpr ⟨sets, hsets, rfl⟩⟩

end Direction

end Dominance

/-! ## The two directions of a graph -/

namespace ControlFlowGraph

variable {graph : ControlFlowGraph} {id target : ControlFlowBlockId}

/-- An edge out of a reachable block. -/
def Edge (graph : ControlFlowGraph) (source target : ControlFlowBlockId) : Prop :=
  graph.IsReachable source ∧ target ∈ graph.validSuccessors source

/-- The reversed edges. -/
def BackEdge (graph : ControlFlowGraph) (source target : ControlFlowBlockId) : Prop :=
  graph.Edge target source

/-- A reachable block without edges. -/
def IsExit (graph : ControlFlowGraph) (id : ControlFlowBlockId) : Prop :=
  graph.IsReachable id ∧ ∀ target, target ∉ graph.validSuccessors id

def IsEntry (graph : ControlFlowGraph) (id : ControlFlowBlockId) : Prop := id = graph.entry

open Dominance Library.Search

theorem mem_reachableIds : id ∈ reachableIds (analyzeControlFlow graph) ↔ graph.IsReachable id := by
  rw [reachableIds, List.mem_toFinset]
  exact mem_preorder

theorem reachableEdges_eq (reverse : Bool) :
    reachableEdges (analyzeControlFlow graph) reverse id =
      if (graph.blockFacts id).reachable then
        if reverse then (graph.blockFacts id).predecessors else (graph.blockFacts id).successors
      else [] := by
  unfold reachableEdges
  rw [flowFact_eq]
  by_cases h : id ∈ graph.blockIds
  · rw [if_pos h]
  · rw [if_neg h, if_neg]
    exact fun hreach => h (reachable_blockFacts.mp hreach).mem_blockIds

theorem mem_predecessorEdges :
    id ∈ reachableEdges (analyzeControlFlow graph) true target ↔ graph.Edge id target := by
  rw [reachableEdges_eq]
  by_cases h : (graph.blockFacts target).reachable = true
  · rw [if_pos h]
    exact mem_predecessors_blockFacts
  · rw [if_neg h]
    refine ⟨fun hmem => absurd hmem List.not_mem_nil, fun hedge => ?_⟩
    exact absurd (reachable_blockFacts.mpr (hedge.1.next hedge.2)) h

theorem mem_successorEdges :
    id ∈ reachableEdges (analyzeControlFlow graph) false target ↔ graph.Edge target id := by
  rw [reachableEdges_eq]
  by_cases h : (graph.blockFacts target).reachable = true
  · rw [if_pos h]
    show id ∈ (graph.blockFacts target).successors ↔ _
    rw [mem_successors_blockFacts]
    exact (and_iff_right (reachable_blockFacts.mp h)).symm
  · rw [if_neg h]
    exact ⟨fun hmem => absurd hmem List.not_mem_nil, fun hedge => absurd (reachable_blockFacts.mpr hedge.1) h⟩

theorem reachableEdges_nodup (reverse : Bool) :
    (reachableEdges (analyzeControlFlow graph) reverse id).Nodup := by
  rw [reachableEdges_eq]
  split
  · cases reverse with
    | true =>
        exact ((Library.Catalog.sortedUnique_nodup _).filter _).filter _
    | false =>
        exact (List.perm_insertionSort _ _).nodup_iff.mpr (validSuccessors_nodup graph id)
  · exact List.nodup_nil

theorem mem_findExits : id ∈ findExits (analyzeControlFlow graph) ↔ graph.IsExit id := by
  unfold findExits
  simp only [List.mem_map, List.mem_filter, Bool.and_eq_true, List.isEmpty_iff]
  constructor
  · rintro ⟨_, ⟨hmem, hreachable, hempty⟩, rfl⟩
    obtain ⟨id, _, rfl⟩ := List.mem_map.mp hmem
    refine ⟨reachable_blockFacts.mp hreachable, fun target htarget => ?_⟩
    have hsuccessor : target ∈ (graph.blockFacts id).successors :=
      mem_successors_blockFacts.mpr htarget
    rw [hempty] at hsuccessor
    exact List.not_mem_nil hsuccessor
  · rintro ⟨hreach, hnone⟩
    refine ⟨graph.blockFacts id, ⟨List.mem_map_of_mem hreach.mem_blockIds,
      reachable_blockFacts.mpr hreach, ?_⟩, rfl⟩
    exact List.eq_nil_iff_forall_not_mem.mpr fun target htarget =>
      hnone target (mem_successors_blockFacts.mp htarget)

/-- Forward the entry is the root. -/
theorem forward_direction (hentry : graph.entry ∈ graph.blockIds) :
    Direction (reachableIds (analyzeControlFlow graph)) [graph.entry]
      (reachableEdges (analyzeControlFlow graph) true) where
  rootNodes := by
    intro root hroot
    rw [List.mem_singleton.mp hroot]
    exact mem_reachableIds.mpr ⟨hentry, Relation.ReflTransGen.refl⟩
  inputNodes := by
    intro node input hinput
    have hedge := mem_predecessorEdges.mp hinput
    exact ⟨mem_reachableIds.mpr hedge.1, mem_reachableIds.mpr (hedge.1.next hedge.2)⟩
  nodup := fun _ => reachableEdges_nodup true
  reached := by
    intro node hnode
    obtain ⟨_, hpath⟩ := mem_reachableIds.mp hnode
    induction hpath with
    | refl => exact ⟨_, .root (List.mem_singleton_self _)⟩
    | @tail source target hpath hedge ih =>
        have hreach : graph.IsReachable source := ⟨hentry, hpath⟩
        exact (ih (mem_reachableIds.mpr hreach)).step (mem_predecessorEdges.mpr ⟨hreach, hedge⟩)

theorem forward_roots : (· ∈ [graph.entry]) = graph.IsEntry := by
  funext id
  exact propext List.mem_singleton

theorem forward_edge : InputEdge (reachableEdges (analyzeControlFlow graph) true) = graph.Edge := by
  funext source target
  exact propext mem_predecessorEdges

theorem backward_roots : (· ∈ findExits (analyzeControlFlow graph)) = graph.IsExit := by
  funext id
  exact propext mem_findExits

theorem backward_edge : InputEdge (reachableEdges (analyzeControlFlow graph) false) = graph.BackEdge := by
  funext source target
  exact propext mem_successorEdges

/-- Backward the exits are the roots, when each reachable block can reach one. -/
theorem backward_direction
    (hreaches : ∀ id, graph.IsReachable id → IsReached graph.IsExit graph.BackEdge id) :
    Direction (reachableIds (analyzeControlFlow graph)) (findExits (analyzeControlFlow graph))
      (reachableEdges (analyzeControlFlow graph) false) where
  rootNodes := fun root hroot => mem_reachableIds.mpr (mem_findExits.mp hroot).1
  inputNodes := by
    intro node input hinput
    have hedge := mem_successorEdges.mp hinput
    exact ⟨mem_reachableIds.mpr (hedge.1.next hedge.2), mem_reachableIds.mpr hedge.1⟩
  nodup := fun _ => reachableEdges_nodup false
  reached := by
    intro node hnode
    have hreached := hreaches node (mem_reachableIds.mp hnode)
    rw [← backward_roots, ← backward_edge] at hreached
    exact hreached

/-- What the search from the exits finds. -/
theorem ledTo_exits_iff :
    LedTo (reachableEdges (analyzeControlFlow graph) true) (findExits (analyzeControlFlow graph)) id ↔
      IsReached graph.IsExit graph.BackEdge id := by
  constructor
  · rintro ⟨exit, hexit, hled⟩
    induction hled with
    | refl => exact ⟨_, .root (mem_findExits.mp hexit)⟩
    | tail _ hedge ih => exact ih.step (mem_predecessorEdges.mp hedge)
  · rintro ⟨path, hpath⟩
    induction hpath with
    | root hexit => exact ⟨_, mem_findExits.mpr hexit, Relation.ReflTransGen.refl⟩
    | step _ hedge ih =>
        obtain ⟨exit, hexit, hled⟩ := ih
        exact ⟨exit, hexit, hled.tail (mem_predecessorEdges.mpr hedge)⟩

theorem findExits_nodup : (findExits (analyzeControlFlow graph)).Nodup := by
  unfold findExits
  have hsub := (List.filter_sublist (p := fun facts : ControlFlowBlockFacts =>
    facts.reachable && facts.successors.isEmpty) (l := (analyzeControlFlow graph).facts)).map
      ControlFlowBlockFacts.block
  refine List.Nodup.sublist hsub ?_
  show ((graph.blockIds.map graph.blockFacts).map ControlFlowBlockFacts.block).Nodup
  rw [List.map_map]
  have hid : ControlFlowBlockFacts.block ∘ graph.blockFacts = id := rfl
  rw [hid, List.map_id]
  exact Library.Catalog.sortedUnique_nodup _

/-- **Post-dominance is available exactly if every reachable block can reach an exit.** -/
theorem everyReachableBlockCanReachAnExit_iff (hentry : graph.entry ∈ graph.blockIds) :
    everyReachableBlockCanReachAnExit (reachableIds (analyzeControlFlow graph))
        (findExits (analyzeControlFlow graph)) (reachableEdges (analyzeControlFlow graph) true) = true ↔
      ∀ id, graph.IsReachable id → IsReached graph.IsExit graph.BackEdge id := by
  have hclosed : ∀ node ∈ reachableIds (analyzeControlFlow graph),
      ∀ other ∈ reachableEdges (analyzeControlFlow graph) true node,
        other ∈ reachableIds (analyzeControlFlow graph) := by
    intro node _ other hother
    exact mem_reachableIds.mpr (mem_predecessorEdges.mp hother).1
  have hexits : ∀ exit ∈ findExits (analyzeControlFlow graph),
      exit ∈ reachableIds (analyzeControlFlow graph) :=
    fun exit hexit => mem_reachableIds.mpr (mem_findExits.mp hexit).1
  have hseen : ∀ id, id ∈ (Worklist.run (reachableEdges (analyzeControlFlow graph) true)
      (findExits (analyzeControlFlow graph)) (2 * (reachableIds (analyzeControlFlow graph)).card)).seen ↔
        IsReached graph.IsExit graph.BackEdge id := by
    intro id
    rw [mem_run_iff hclosed hexits findExits_nodup (le_refl _)]
    exact ledTo_exits_iff
  unfold everyReachableBlockCanReachAnExit
  rw [Bool.and_eq_true, decide_eq_true_eq, Finset.ext_iff]
  simp only [hseen, mem_reachableIds]
  constructor
  · rintro ⟨_, hall⟩ id hreach
    exact (hall id).mpr hreach
  · intro hall
    constructor
    · obtain ⟨path, hpath⟩ := hall graph.entry ⟨hentry, Relation.ReflTransGen.refl⟩
      have hexit : ∀ {id path}, Walk graph.IsExit graph.BackEdge id path → ∃ exit, graph.IsExit exit := by
        intro id path hwalk
        induction hwalk with
        | root hroot => exact ⟨_, hroot⟩
        | step _ _ ih => exact ih
      obtain ⟨exit, hexit⟩ := hexit hpath
      have hmem := mem_findExits.mpr hexit
      simp only [Bool.not_eq_true', List.isEmpty_eq_false_iff]
      exact List.ne_nil_of_mem hmem
    · intro id
      refine ⟨?_, hall id⟩
      rintro ⟨path, hpath⟩
      cases hpath with
      | root hexit => exact hexit.1
      | step _ hedge => exact hedge.1

/-- An exit has no edge of its own. -/
theorem not_singleInputRoot_exit (id : ControlFlowBlockId) :
    ¬ SingleInputRoot graph.IsExit graph.BackEdge id := by
  rintro ⟨⟨_, hnone⟩, only, hall⟩
  exact hnone only ((hall only).mpr rfl).2

end ControlFlowGraph

/-! ## The answer -/

section Answer

open Dominance ControlFlowGraph

variable {graph other : ControlFlowGraph} {steps steps' : Nat} {result result' : DominanceResult}

/-- The facts of a block as the definitions have them. The entry is in no frontier when the graph has one
edge back to it. -/
structure ControlFlowGraph.DominanceExact (graph : ControlFlowGraph) (facts : DominanceBlockFacts) :
    Prop where
  reachable : graph.IsReachable facts.block
  dominators : ∀ a, a ∈ facts.dominators ↔ Dominates graph.IsEntry graph.Edge a facts.block
  immediate : ∀ a, facts.immediateDominator = some a ↔ IsImmediate graph.IsEntry graph.Edge a facts.block
  frontier : ∀ join, join ∈ facts.dominanceFrontier ↔
    InFrontier graph.IsEntry graph.Edge facts.block join ∧ ¬ SingleInputRoot graph.IsEntry graph.Edge join

structure ControlFlowGraph.PostDominanceExact (graph : ControlFlowGraph) (facts : DominanceBlockFacts) :
    Prop where
  dominators : ∀ a, a ∈ facts.postDominators ↔ Dominates graph.IsExit graph.BackEdge a facts.block
  immediate : ∀ a,
    facts.immediatePostDominator = some a ↔ IsImmediate graph.IsExit graph.BackEdge a facts.block
  frontier : ∀ join, join ∈ facts.postDominanceFrontier ↔
    InFrontier graph.IsExit graph.BackEdge facts.block join

/-- The result of the relations of both directions. -/
def resultOf (graph : ControlFlowGraph) (forward : DominanceRelation) (post : Option DominanceRelation) :
    DominanceResult where
  controlFlow := analyzeControlFlow graph
  facts := (analyzeControlFlow graph).facts.map (buildBlockFacts forward post)
  exits := findExits (analyzeControlFlow graph)
  hasPostDominance := post.isSome

/-- The relations that a result was made from. -/
structure MadeFrom (graph : ControlFlowGraph) (result : DominanceResult) (forward : DominanceRelation)
    (post : Option DominanceRelation) : Prop where
  result_eq : result = resultOf graph forward post
  forward_exact : ExactRelation (reachableIds (analyzeControlFlow graph)) graph.IsEntry graph.Edge forward
  post_exact : ∀ relation ∈ post,
    ExactRelation (reachableIds (analyzeControlFlow graph)) graph.IsExit graph.BackEdge relation
  post_isSome : post.isSome = true ↔
    ∀ id, graph.IsReachable id → IsReached graph.IsExit graph.BackEdge id

theorem reachableIds_ne_empty (hentry : graph.entry ∈ graph.blockIds) :
    reachableIds (analyzeControlFlow graph) ≠ ∅ := by
  have hmem : graph.entry ∈ reachableIds (analyzeControlFlow graph) :=
    mem_reachableIds.mpr ⟨hentry, Relation.ReflTransGen.refl⟩
  exact Finset.ne_empty_of_mem hmem

theorem mem_order (id : ControlFlowBlockId) : id ∈ (analyzeControlFlow graph).reversePostorder ↔
    id ∈ reachableIds (analyzeControlFlow graph) := by
  rw [mem_reversePostorder, mem_reachableIds]

theorem mem_order_reverse (id : ControlFlowBlockId) :
    id ∈ (analyzeControlFlow graph).reversePostorder.reverse ↔
      id ∈ reachableIds (analyzeControlFlow graph) := by
  rw [List.mem_reverse, mem_order]

variable {forward : DominanceRelation} {post : Option DominanceRelation} {facts : DominanceBlockFacts}

theorem forward_exact (hentry : graph.entry ∈ graph.blockIds)
    (h : computeRelation (reachableIds (analyzeControlFlow graph)) [graph.entry]
      (reachableEdges (analyzeControlFlow graph) true) (analyzeControlFlow graph).reversePostorder steps
        = some forward) :
    ExactRelation (reachableIds (analyzeControlFlow graph)) graph.IsEntry graph.Edge forward := by
  have hexact := computeRelation_exact (forward_direction hentry) mem_order h
  rwa [forward_roots, forward_edge] at hexact

theorem backward_exact
    (hreaches : ∀ id, graph.IsReachable id → IsReached graph.IsExit graph.BackEdge id)
    {post : DominanceRelation}
    (h : computeRelation (reachableIds (analyzeControlFlow graph)) (findExits (analyzeControlFlow graph))
      (reachableEdges (analyzeControlFlow graph) false)
      (analyzeControlFlow graph).reversePostorder.reverse steps = some post) :
    ExactRelation (reachableIds (analyzeControlFlow graph)) graph.IsExit graph.BackEdge post := by
  have hexact := computeRelation_exact (backward_direction hreaches) mem_order_reverse h
  rwa [backward_roots, backward_edge] at hexact

/-- Every result is made from exact relations. -/
theorem exists_madeFrom (hentry : graph.entry ∈ graph.blockIds)
    (h : analyzeDominance graph steps = some result) :
    ∃ forward post, MadeFrom graph result forward post := by
  have hcan := everyReachableBlockCanReachAnExit_iff hentry
  unfold analyzeDominance at h
  dsimp only at h
  rw [if_neg (reachableIds_ne_empty hentry), Option.bind_eq_bind, Option.bind_eq_some_iff] at h
  obtain ⟨forward, hforward, h⟩ := h
  by_cases hpost : everyReachableBlockCanReachAnExit (reachableIds (analyzeControlFlow graph))
      (findExits (analyzeControlFlow graph)) (reachableEdges (analyzeControlFlow graph) true) = true
  · rw [if_pos hpost, Option.bind_eq_some_iff] at h
    obtain ⟨post, hcompute, h⟩ := h
    have hreaches := hcan.mp hpost
    refine ⟨forward, some post, (Option.some.inj h).symm, forward_exact hentry hforward, ?_, ?_⟩
    · intro relation hrelation
      rw [← Option.some.inj hrelation]
      exact backward_exact hreaches hcompute
    · exact ⟨fun _ => hreaches, fun _ => rfl⟩
  · rw [if_neg hpost] at h
    refine ⟨forward, none, (Option.some.inj h).symm, forward_exact hentry hforward, ?_, ?_⟩
    · intro relation hrelation
      cases hrelation
    · exact ⟨fun hfalse => absurd hfalse (by simp), fun hreaches => absurd (hcan.mpr hreaches) hpost⟩

theorem analyzeDominance_isSome (hentry : graph.entry ∈ graph.blockIds) :
    ∃ enough, ∀ steps ≥ enough, ∃ result, analyzeDominance graph steps = some result := by
  have hcan := everyReachableBlockCanReachAnExit_iff hentry
  obtain ⟨enough, hforward⟩ := computeRelation_isSome (forward_direction hentry) mem_order
  by_cases hpost : everyReachableBlockCanReachAnExit (reachableIds (analyzeControlFlow graph))
      (findExits (analyzeControlFlow graph)) (reachableEdges (analyzeControlFlow graph) true) = true
  · obtain ⟨enough', hbackward⟩ :=
      computeRelation_isSome (backward_direction (hcan.mp hpost)) mem_order_reverse
    refine ⟨max enough enough', fun steps hsteps => ?_⟩
    obtain ⟨forward, hforward⟩ := hforward steps (le_trans (le_max_left _ _) hsteps)
    obtain ⟨post, hbackward⟩ := hbackward steps (le_trans (le_max_right _ _) hsteps)
    refine ⟨resultOf graph forward (some post), ?_⟩
    unfold analyzeDominance
    dsimp only
    rw [if_neg (reachableIds_ne_empty hentry), hforward]
    show (if everyReachableBlockCanReachAnExit _ _ _ = true then _ else _) = _
    rw [if_pos hpost, hbackward]
    rfl
  · refine ⟨enough, fun steps hsteps => ?_⟩
    obtain ⟨forward, hforward⟩ := hforward steps hsteps
    refine ⟨resultOf graph forward none, ?_⟩
    unfold analyzeDominance
    dsimp only
    rw [if_neg (reachableIds_ne_empty hentry), hforward]
    show (if everyReachableBlockCanReachAnExit _ _ _ = true then _ else _) = _
    rw [if_neg hpost]
    rfl

theorem mem_resultOf_facts (h : facts ∈ (resultOf graph forward post).facts) :
    ∃ id ∈ graph.blockIds, facts = buildBlockFacts forward post (graph.blockFacts id) := by
  obtain ⟨flowFacts, hflow, rfl⟩ := List.mem_map.mp h
  obtain ⟨id, hid, rfl⟩ := List.mem_map.mp hflow
  exact ⟨id, hid, rfl⟩

/-- The facts of a reachable block are the values of the relations there. -/
theorem exists_of_mem_resultOf (h : facts ∈ (resultOf graph forward post).facts)
    (hreachable : facts.reachable = true) :
    ∃ id, graph.IsReachable id ∧
      facts = ⟨id, true, forward.parents id, post.bind fun relation => relation.parents id,
        toVector (forward.dominators id),
        (post.map fun relation => toVector (relation.dominators id)).getD [],
        toVector (forward.frontiers id),
        (post.map fun relation => toVector (relation.frontiers id)).getD []⟩ := by
  obtain ⟨id, _, rfl⟩ := mem_resultOf_facts h
  unfold buildBlockFacts at hreachable ⊢
  by_cases hreach : (graph.blockFacts id).reachable = true
  · rw [if_pos hreach]
    exact ⟨id, reachable_blockFacts.mp hreach, rfl⟩
  · rw [if_neg hreach] at hreachable
    cases hreachable

theorem MadeFrom.dominanceExact (h : MadeFrom graph result forward post) (hfacts : facts ∈ result.facts)
    (hreachable : facts.reachable = true) : graph.DominanceExact facts := by
  rw [h.result_eq] at hfacts
  obtain ⟨id, hreach, rfl⟩ := exists_of_mem_resultOf hfacts hreachable
  have hid := mem_reachableIds.mpr hreach
  constructor
  · exact hreach
  · intro a
    rw [mem_toVector]
    exact h.forward_exact.dominators id hid a
  · intro a
    exact h.forward_exact.parents id hid a
  · intro join
    rw [mem_toVector]
    exact h.forward_exact.frontiers id hid join

theorem MadeFrom.postDominanceExact (h : MadeFrom graph result forward post) (hpost : result.hasPostDominance = true)
    (hfacts : facts ∈ result.facts) (hreachable : facts.reachable = true) : graph.PostDominanceExact facts := by
  rw [h.result_eq] at hfacts hpost
  obtain ⟨relation, rfl⟩ := Option.isSome_iff_exists.mp hpost
  obtain ⟨id, hreach, rfl⟩ := exists_of_mem_resultOf hfacts hreachable
  have hid := mem_reachableIds.mpr hreach
  have hexact := h.post_exact relation rfl
  constructor
  · intro a
    show a ∈ toVector (relation.dominators id) ↔ _
    rw [mem_toVector]
    exact hexact.dominators id hid a
  · intro a
    exact hexact.parents id hid a
  · intro join
    show join ∈ toVector (relation.frontiers id) ↔ _
    rw [mem_toVector, hexact.frontiers id hid join]
    exact and_iff_left (not_singleInputRoot_exit join)

variable {forward' : DominanceRelation} {post' : Option DominanceRelation}

/-- The facts are determined by the edges. -/
theorem MadeFrom.facts_eq (h : MadeFrom graph result forward post) (h' : MadeFrom other result' forward' post')
    (hedges : SameEdges graph other) : result'.facts = result.facts := by
  have hreach := hedges.isReachable_iff
  have hnodes : reachableIds (analyzeControlFlow other) = reachableIds (analyzeControlFlow graph) := by
    ext id
    rw [mem_reachableIds, mem_reachableIds, hreach]
  have hedge : other.Edge = graph.Edge := by
    funext source target
    exact propext (and_congr (hreach source) (hedges.validSuccessors source target))
  have hback : other.BackEdge = graph.BackEdge := by
    funext source target
    exact congrFun (congrFun hedge target) source
  have hexit : other.IsExit = graph.IsExit := by
    funext id
    exact propext (and_congr (hreach id) (forall_congr' fun target =>
      not_congr (hedges.validSuccessors id target)))
  have hentry : other.IsEntry = graph.IsEntry := by
    funext id
    unfold IsEntry
    rw [hedges.entry]
  have hforward := h'.forward_exact
  have hpost := h'.post_exact
  have hsome := h'.post_isSome
  rw [hnodes, hedge, hentry] at hforward
  rw [hnodes, hback, hexit] at hpost
  rw [hback, hexit, forall_congr' fun id => imp_congr_left (hreach id), ← h.post_isSome] at hsome
  rw [h.result_eq, h'.result_eq]
  show (analyzeControlFlow other).facts.map _ = (analyzeControlFlow graph).facts.map _
  rw [hedges.facts_eq]
  refine List.map_congr_left fun flowFacts hflow => ?_
  obtain ⟨id, _, rfl⟩ := List.mem_map.mp hflow
  unfold buildBlockFacts
  by_cases hreachable : (graph.blockFacts id).reachable = true
  · have hid := mem_reachableIds.mpr (reachable_blockFacts.mp hreachable)
    obtain ⟨hdominators, hparents, hfrontiers⟩ := h.forward_exact.unique hforward hid
    rw [if_pos hreachable, if_pos hreachable]
    show DominanceBlockFacts.mk id true (forward'.parents id) _ (toVector (forward'.dominators id)) _
      (toVector (forward'.frontiers id)) _ = _
    rw [hdominators, hparents, hfrontiers]
    cases post with
    | none =>
        cases post' with
        | none => rfl
        | some relation' => exact absurd (hsome.mp rfl) (by simp)
    | some relation =>
        cases post' with
        | none => exact absurd (hsome.mpr rfl) (by simp)
        | some relation' =>
            obtain ⟨hdominators, hparents, hfrontiers⟩ :=
              (h.post_exact relation rfl).unique (hpost relation' rfl) hid
            show DominanceBlockFacts.mk id true _ (relation'.parents id) _
              (toVector (relation'.dominators id)) _ (toVector (relation'.frontiers id)) = _
            rw [hdominators, hparents, hfrontiers]
            rfl
  · rw [if_neg hreachable, if_neg hreachable]

theorem MadeFrom.eq_of_facts (h : MadeFrom graph result forward post) (h' : MadeFrom graph result' forward' post') :
    result = result' := by
  have hfacts := h'.facts_eq h (SameEdges.refl graph)
  have hsome : post.isSome = post'.isSome := Bool.eq_iff_iff.mpr (h.post_isSome.trans h'.post_isSome.symm)
  rw [h.result_eq, h'.result_eq] at hfacts ⊢
  unfold resultOf at hfacts ⊢
  dsimp only at hfacts
  rw [hfacts, hsome]

/-- The analysis has one result, whatever number of passes it is given beyond those it needs. -/
theorem analyzeDominance_settles (hentry : graph.entry ∈ graph.blockIds) :
    ∃ result, (∃ enough, ∀ steps ≥ enough, analyzeDominance graph steps = some result) ∧
      ∃ forward post, MadeFrom graph result forward post := by
  obtain ⟨enough, hended⟩ := analyzeDominance_isSome hentry
  obtain ⟨result, hresult⟩ := hended enough (le_refl enough)
  obtain ⟨forward, post, hmade⟩ := exists_madeFrom hentry hresult
  refine ⟨result, ⟨enough, fun steps hsteps => ?_⟩, forward, post, hmade⟩
  obtain ⟨result', hresult'⟩ := hended steps hsteps
  obtain ⟨forward', post', hmade'⟩ := exists_madeFrom hentry hresult'
  rw [hresult', hmade'.eq_of_facts hmade]

/-- **The dominance facts are exact.** A graph whose entry is one of its blocks has one result. It has the
facts of every reachable block: the dominators, the immediate dominator and the frontier that the walks
from the entry define, without the entry in a frontier when just one edge leads back to it; and the same
for the reversed walks from the exits when every reachable block can reach one. The order in which distinct
blocks and their edges are listed changes none of them. -/
theorem analyzeDominance_exact (graph : ControlFlowGraph) (hentry : graph.entry ∈ graph.blockIds) :
    ∃ result, (∃ enough, ∀ steps ≥ enough, analyzeDominance graph steps = some result) ∧
      (∀ id, graph.IsReachable id → ∃ facts ∈ result.facts, facts.block = id ∧ facts.reachable = true) ∧
      (∀ facts ∈ result.facts, facts.reachable = true → graph.DominanceExact facts) ∧
      (result.hasPostDominance = true ↔
        ∀ id, graph.IsReachable id → IsReached graph.IsExit graph.BackEdge id) ∧
      (result.hasPostDominance = true →
        ∀ facts ∈ result.facts, facts.reachable = true → graph.PostDominanceExact facts) ∧
      ((graph.blocks.map ControlFlowBlock.id).Nodup → ∀ relisted, Relists graph relisted →
        ∀ steps other, analyzeDominance relisted steps = some other → other.facts = result.facts) := by
  obtain ⟨result, hsettles, forward, post, hmade⟩ := analyzeDominance_settles hentry
  refine ⟨result, hsettles, ?_, ?_, ?_, ?_, ?_⟩
  · intro id hreach
    rw [hmade.result_eq]
    refine ⟨_, List.mem_map_of_mem (List.mem_map_of_mem hreach.mem_blockIds), ?_⟩
    unfold buildBlockFacts
    rw [if_pos (reachable_blockFacts.mpr hreach)]
    exact ⟨rfl, rfl⟩
  · intro facts hfacts hreachable
    exact hmade.dominanceExact hfacts hreachable
  · rw [← hmade.post_isSome, hmade.result_eq]
    rfl
  · intro hpost facts hfacts hreachable
    exact hmade.postDominanceExact hpost hfacts hreachable
  · intro hnodup relisted hrelists steps other hother
    have hedges := hrelists.sameEdges hnodup
    have hentry' : relisted.entry ∈ relisted.blockIds := by
      rw [hedges.entry, hedges.blockIds]
      exact hentry
    obtain ⟨forward', post', hmade'⟩ := exists_madeFrom hentry' hother
    exact hmade.facts_eq hmade' hedges

/-- A branch and its two arms, with the blocks and the edges in some order. -/
def diamond : ControlFlowGraph := ⟨0, [⟨3, []⟩, ⟨0, [2, 1]⟩, ⟨1, [3]⟩, ⟨2, [3]⟩]⟩

theorem analyzeDominance_exact_diamond : ∃ result,
    (∃ enough, ∀ steps ≥ enough, analyzeDominance diamond steps = some result) ∧
      ∀ facts ∈ result.facts, facts.reachable = true → diamond.DominanceExact facts := by
  obtain ⟨result, hresult, _, hexact, _⟩ := analyzeDominance_exact diamond (by decide)
  exact ⟨result, hresult, hexact⟩

/-- A loop around the entry. -/
def entryLoop : ControlFlowGraph := ⟨0, [⟨0, [0, 1]⟩, ⟨1, []⟩]⟩

/-- The entry dominates the source of its one incoming edge, but is in no frontier. -/
theorem not_mem_frontier_entryLoop : InFrontier entryLoop.IsEntry entryLoop.Edge 0 0 ∧ ∃ result,
    (∃ enough, ∀ steps ≥ enough, analyzeDominance entryLoop steps = some result) ∧
      ∃ facts ∈ result.facts, facts.block = 0 ∧ facts.reachable = true ∧ 0 ∉ facts.dominanceFrontier := by
  have hentry : entryLoop.entry ∈ entryLoop.blockIds := by decide
  have hreach : entryLoop.IsReachable 0 := ⟨hentry, Relation.ReflTransGen.refl⟩
  have hloop : entryLoop.Edge 0 0 := ⟨hreach, by decide⟩
  have honly : ∀ input, entryLoop.Edge input 0 ↔ input = 0 := by
    intro input
    constructor
    · rintro ⟨_, hedge⟩
      obtain ⟨block, hblock, htarget, _⟩ := mem_validSuccessors.mp hedge
      have hmem := findBlock_mem hblock
      have hid := findBlock_id hblock
      simp only [entryLoop, List.mem_cons, List.not_mem_nil, or_false] at hmem
      rcases hmem with rfl | rfl
      · exact hid.symm
      · cases htarget
    · rintro rfl
      exact hloop
  refine ⟨⟨⟨0, hloop, fun path hpath => hpath.mem⟩, fun hstrict => hstrict.1 rfl⟩, ?_⟩
  obtain ⟨result, hsettles, forward, post, hmade⟩ := analyzeDominance_settles hentry
  refine ⟨result, hsettles, buildBlockFacts forward post (entryLoop.blockFacts 0), ?_, ?_⟩
  · rw [hmade.result_eq]
    exact List.mem_map_of_mem (List.mem_map_of_mem hentry)
  · unfold buildBlockFacts
    rw [if_pos (reachable_blockFacts.mpr hreach)]
    refine ⟨rfl, rfl, ?_⟩
    show 0 ∉ toVector (forward.frontiers 0)
    rw [mem_toVector, hmade.forward_exact.frontiers 0 (mem_reachableIds.mpr hreach)]
    rintro ⟨_, hnot⟩
    exact hnot ⟨rfl, 0, honly⟩

/-! ## The tree of the reported parents -/

/-- The way up from a block over the parents that the facts have. -/
def DominanceResult.Climbs (result : DominanceResult)
    (parentOf : DominanceBlockFacts → Option ControlFlowBlockId) :
    ControlFlowBlockId → ControlFlowBlockId → Prop :=
  Relation.ReflTransGen fun child parent =>
    ∃ facts ∈ result.facts, facts.block = child ∧ parentOf facts = some parent

/-- The parents make trees: up from a block are its dominators, and its post-dominators. -/
structure ControlFlowGraph.DominanceTrees (graph : ControlFlowGraph) (result : DominanceResult) : Prop where
  dominators : ∀ a b, graph.IsReachable b →
    (result.Climbs (·.immediateDominator) b a ↔ Dominates graph.IsEntry graph.Edge a b)
  postDominators : result.hasPostDominance = true → ∀ a b, graph.IsReachable b →
    (result.Climbs (·.immediatePostDominator) b a ↔ Dominates graph.IsExit graph.BackEdge a b)

theorem block_buildBlockFacts {flowFacts : ControlFlowBlockFacts} :
    (buildBlockFacts forward post flowFacts).block = flowFacts.block := by
  unfold buildBlockFacts
  split <;> rfl

theorem climbs_iff {parentOf : DominanceBlockFacts → Option ControlFlowBlockId}
    {roots : ControlFlowBlockId → Prop} {edge : ControlFlowBlockId → ControlFlowBlockId → Prop}
    {relation : DominanceRelation} {a b : ControlFlowBlockId}
    (hexact : ExactRelation (reachableIds (analyzeControlFlow graph)) roots edge relation)
    (hreached : ∀ id, IsReached roots edge id ↔ graph.IsReachable id)
    (hparent : ∀ id, parentOf (buildBlockFacts forward post (graph.blockFacts id)) =
      if (graph.blockFacts id).reachable then relation.parents id else none) (hb : graph.IsReachable b) :
    (resultOf graph forward post).Climbs parentOf b a ↔ Dominates roots edge a b := by
  rw [← climbs_iff_dominates relation.dominators
    (fun node hnode => hexact.dominators node (mem_reachableIds.mpr ((hreached node).mp hnode)))
    ((hreached b).mpr hb)]
  unfold DominanceResult.Climbs
  refine iff_of_eq (congrArg (fun up => Relation.ReflTransGen up b a) ?_)
  funext child parent
  rw [hreached, eq_iff_iff]
  constructor
  · rintro ⟨facts, hfacts, rfl, hsome⟩
    obtain ⟨id, _, rfl⟩ := mem_resultOf_facts hfacts
    rw [block_buildBlockFacts]
    rw [hparent] at hsome
    split at hsome
    next hreach =>
      have hreach := reachable_blockFacts.mp hreach
      exact ⟨hreach, (hexact.parents id (mem_reachableIds.mpr hreach) parent).mp hsome⟩
    next => cases hsome
  · rintro ⟨hreach, himmediate⟩
    refine ⟨_, List.mem_map_of_mem (List.mem_map_of_mem hreach.mem_blockIds), block_buildBlockFacts, ?_⟩
    rw [hparent, if_pos (reachable_blockFacts.mpr hreach)]
    exact (hexact.parents child (mem_reachableIds.mpr hreach) parent).mpr himmediate

theorem MadeFrom.trees (h : MadeFrom graph result forward post) (hentry : graph.entry ∈ graph.blockIds) :
    graph.DominanceTrees result := by
  constructor
  · intro a b hb
    rw [h.result_eq]
    refine climbs_iff h.forward_exact (fun id => ?_) (fun id => ?_) hb
    · have hdirection := forward_direction hentry
      rw [← forward_roots, ← forward_edge, ← mem_reachableIds]
      exact ⟨hdirection.node_of_reached, hdirection.reached id⟩
    · unfold buildBlockFacts
      split <;> rfl
  · intro hpost a b hb
    rw [h.result_eq] at hpost ⊢
    obtain ⟨relation, rfl⟩ := Option.isSome_iff_exists.mp hpost
    refine climbs_iff (h.post_exact relation rfl) (fun id => ⟨?_, h.post_isSome.mp rfl id⟩) (fun id => ?_) hb
    · rintro ⟨path, hpath⟩
      cases hpath with
      | root hexit => exact hexit.1
      | step _ hedge => exact hedge.1
    · unfold buildBlockFacts
      split <;> rfl

/-- **The reported immediate dominators form the dominator tree.** From a reachable block the way up over
them meets exactly its dominators, and over the immediate post-dominators exactly its post-dominators. -/
theorem analyzeDominance_trees (graph : ControlFlowGraph) :
    ∃ result, (∃ enough, ∀ steps ≥ enough, analyzeDominance graph steps = some result) ∧
      graph.DominanceTrees result := by
  by_cases hentry : graph.entry ∈ graph.blockIds
  · obtain ⟨result, hsettles, forward, post, hmade⟩ := analyzeDominance_settles hentry
    exact ⟨result, hsettles, hmade.trees hentry⟩
  · have hempty : reachableIds (analyzeControlFlow graph) = ∅ :=
      Finset.eq_empty_of_forall_notMem fun block hmem => hentry (mem_reachableIds.mp hmem).1
    refine ⟨_, ⟨0, fun steps _ => if_pos hempty⟩, ?_, ?_⟩
    · exact fun _ _ hreach => absurd hreach.1 hentry
    · exact fun _ _ _ hreach => absurd hreach.1 hentry

end Answer

end Tala.Analysis
