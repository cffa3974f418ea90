import Mathlib.Data.Finset.Max

/-!
# `Library.Dominators` — domination in a graph with roots

A node dominates another one if it is on every walk from a root to it. The relation is an order on the
nodes that walks reach (`Dominates.trans`, `Dominates.antisymm`), the dominators of one node are a chain
(`dominates_total`), so the strict one with the most dominators of its own is the immediate one
(`isImmediate_of_greatest`), and up the immediate ones are all dominators (`climbs_iff_dominates`).
`dominates_iff` is the equation an analysis solves, and `dominates_of_closed` says that its greatest solution
has nothing but dominators.

With an entry as the root and edges as they are these are dominators, with the exits as roots and edges
reversed they are post-dominators.
-/

namespace Tala.Library.Dominators

variable {Node : Type} {roots : Node → Prop} {edge : Node → Node → Prop} {a b c node : Node}
  {path : List Node}

/-- A walk from a root, by the nodes on it, the last of them included. -/
inductive Walk (roots : Node → Prop) (edge : Node → Node → Prop) : Node → List Node → Prop
  | root {node : Node} (h : roots node) : Walk roots edge node [node]
  | step {source node : Node} {path : List Node} (h : Walk roots edge source path)
      (hedge : edge source node) : Walk roots edge node (path ++ [node])

/-- A node that some walk arrives at. -/
def IsReached (roots : Node → Prop) (edge : Node → Node → Prop) (node : Node) : Prop :=
  ∃ path, Walk roots edge node path

/-- On every walk to the node. -/
def Dominates (roots : Node → Prop) (edge : Node → Node → Prop) (dominator node : Node) : Prop :=
  ∀ path, Walk roots edge node path → dominator ∈ path

def StrictlyDominates (roots : Node → Prop) (edge : Node → Node → Prop) (dominator node : Node) : Prop :=
  dominator ≠ node ∧ Dominates roots edge dominator node

/-- The nearest strict dominator: every other one dominates it. -/
def IsImmediate (roots : Node → Prop) (edge : Node → Node → Prop) (dominator node : Node) : Prop :=
  StrictlyDominates roots edge dominator node ∧
    ∀ other, StrictlyDominates roots edge other node → Dominates roots edge other dominator

/-- The node dominates a source of an edge to the join, but not strictly the join. -/
def InFrontier (roots : Node → Prop) (edge : Node → Node → Prop) (node join : Node) : Prop :=
  (∃ source, edge source join ∧ Dominates roots edge node source) ∧
    ¬ StrictlyDominates roots edge node join

/-! ## Walks -/

theorem Walk.mem (h : Walk roots edge node path) : node ∈ path := by
  cases h with
  | root => exact List.mem_singleton_self _
  | step => exact List.mem_append_right _ (List.mem_singleton_self _)

theorem Walk.getLast? (h : Walk roots edge node path) : path.getLast? = some node := by
  cases h with
  | root => rfl
  | step => exact List.getLast?_concat

/-- A walk runs through each of its nodes on a walk of its own. -/
theorem Walk.split (h : Walk roots edge node path) (ha : a ∈ path) :
    ∃ before after, path = before ++ after ∧ Walk roots edge a before := by
  induction h with
  | root hroot =>
      rw [List.mem_singleton.mp ha]
      exact ⟨_, [], (List.append_nil _).symm, .root hroot⟩
  | @step source node path hwalk hedge ih =>
      rcases List.mem_append.mp ha with ha | ha
      · obtain ⟨before, after, rfl, hbefore⟩ := ih ha
        exact ⟨before, after ++ [node], List.append_assoc _ _ _, hbefore⟩
      · rw [List.mem_singleton.mp ha]
        exact ⟨path ++ [node], [], (List.append_nil _).symm, hwalk.step hedge⟩

theorem IsReached.step (h : IsReached roots edge a) (hedge : edge a b) : IsReached roots edge b := by
  obtain ⟨path, hpath⟩ := h
  exact ⟨_, hpath.step hedge⟩

/-! ## Domination is an order -/

theorem Dominates.refl (roots : Node → Prop) (edge : Node → Node → Prop) (node : Node) :
    Dominates roots edge node node :=
  fun _ hpath => hpath.mem

theorem Dominates.trans (hab : Dominates roots edge a b) (hbc : Dominates roots edge b c) :
    Dominates roots edge a c := by
  intro path hpath
  obtain ⟨before, after, rfl, hbefore⟩ := hpath.split (hbc path hpath)
  exact List.mem_append_left _ (hab before hbefore)

theorem Dominates.isReached (h : Dominates roots edge a b) (hb : IsReached roots edge b) :
    IsReached roots edge a := by
  obtain ⟨path, hpath⟩ := hb
  obtain ⟨before, _, _, hbefore⟩ := hpath.split (h path hpath)
  exact ⟨before, hbefore⟩

/-- Two nodes that dominate each other would each need a shorter walk than the other. -/
theorem Dominates.antisymm (hab : Dominates roots edge a b) (hba : Dominates roots edge b a)
    (ha : IsReached roots edge a) : a = b := by
  obtain ⟨path, hpath⟩ := ha
  induction hlength : path.length using Nat.strong_induction_on generalizing path with
  | h length ih =>
      obtain ⟨before, after, rfl, hbefore⟩ := hpath.split (hba path hpath)
      obtain ⟨before', after', rfl, hbefore'⟩ := hbefore.split (hab before hbefore)
      by_cases hafter : after = []
      · subst hafter
        rw [List.append_nil] at hpath
        exact Option.some.inj (hpath.getLast?.symm.trans hbefore.getLast?)
      · have hpositive := List.length_pos_of_ne_nil hafter
        simp only [List.length_append] at hlength
        exact ih before'.length (by omega) before' hbefore' rfl

/-- **The dominators of a node are a chain.** If neither of two dominated the other, walks could be put
together that avoid one of them. -/
theorem dominates_total (ha : Dominates roots edge a node) (hb : Dominates roots edge b node)
    (hnode : IsReached roots edge node) : Dominates roots edge a b ∨ Dominates roots edge b a := by
  by_contra hneither
  rw [not_or] at hneither
  obtain ⟨⟨toB, hwalkB, hnotA⟩, toA, hwalkA, hnotB⟩ :
      (∃ path, Walk roots edge b path ∧ a ∉ path) ∧ ∃ path, Walk roots edge a path ∧ b ∉ path := by
    unfold Dominates at hneither
    push Not at hneither
    exact hneither
  have havoid : ∀ {node path}, Walk roots edge node path →
      ∃ path', Walk roots edge node path' ∧ (a ∉ path' ∨ b ∉ path') := by
    intro node path hpath
    by_cases hA : node = a
    · rw [hA]
      exact ⟨toA, hwalkA, Or.inr hnotB⟩
    by_cases hB : node = b
    · rw [hB]
      exact ⟨toB, hwalkB, Or.inl hnotA⟩
    induction hpath with
    | root hroot =>
        refine ⟨_, .root hroot, Or.inl ?_⟩
        rw [List.mem_singleton]
        exact Ne.symm hA
    | @step source node path hwalk hedge ih =>
        have hlast : ∀ {x : Node} {path' : List Node}, x ≠ node → x ∉ path' → x ∉ path' ++ [node] := by
          intro x path' hne hx hmem
          rcases List.mem_append.mp hmem with hmem | hmem
          · exact hx hmem
          · exact hne (List.mem_singleton.mp hmem)
        by_cases hA' : source = a
        · exact ⟨_, (hA' ▸ hwalkA).step hedge, Or.inr (hlast (Ne.symm hB) hnotB)⟩
        by_cases hB' : source = b
        · exact ⟨_, (hB' ▸ hwalkB).step hedge, Or.inl (hlast (Ne.symm hA) hnotA)⟩
        obtain ⟨path', hpath', havoids⟩ := ih hA' hB'
        exact ⟨_, hpath'.step hedge, havoids.imp (hlast (Ne.symm hA)) (hlast (Ne.symm hB))⟩
  obtain ⟨path, hpath⟩ := hnode
  obtain ⟨path', hpath', hA | hB⟩ := havoid hpath
  · exact hA (ha path' hpath')
  · exact hB (hb path' hpath')

/-! ## The equation -/

theorem dominates_root (hroot : roots node) : Dominates roots edge a node ↔ a = node := by
  constructor
  · intro h
    exact List.mem_singleton.mp (h [node] (.root hroot))
  · rintro rfl
    exact Dominates.refl roots edge a

/-- **The equation of domination**: a node is dominated by itself and by what dominates all sources of its
edges. -/
theorem dominates_iff (hroot : ¬ roots node) :
    Dominates roots edge a node ↔
      a = node ∨ ∀ source, edge source node → Dominates roots edge a source := by
  constructor
  · intro h
    by_cases ha : a = node
    · exact Or.inl ha
    · right
      intro source hedge path hpath
      rcases List.mem_append.mp (h _ (hpath.step hedge)) with hmem | hmem
      · exact hmem
      · exact absurd (List.mem_singleton.mp hmem) ha
  · rintro (rfl | h) path hpath
    · exact hpath.mem
    · cases hpath with
      | root hroot' => exact absurd hroot' hroot
      | step hwalk hedge => exact List.mem_append_left _ (h _ hedge _ hwalk)

/-- Sets of nodes that satisfy one half of the equation have nothing but dominators. -/
theorem dominates_of_closed (sets : Node → Finset Node) (hroots : ∀ node, roots node → ∀ a ∈ sets node, a = node)
    (hedges : ∀ source node, edge source node → IsReached roots edge source → ¬ roots node →
      ∀ a ∈ sets node, a = node ∨ a ∈ sets source) (ha : a ∈ sets node) :
    Dominates roots edge a node := by
  intro path hpath
  induction hpath with
  | root hroot =>
      rw [hroots _ hroot a ha]
      exact List.mem_singleton_self _
  | @step source node path hwalk hedge ih =>
      by_cases hroot : roots node
      · rw [hroots node hroot a ha]
        exact List.mem_append_right _ (List.mem_singleton_self _)
      · rcases hedges source node hedge ⟨path, hwalk⟩ hroot a ha with rfl | ha
        · exact List.mem_append_right _ (List.mem_singleton_self _)
        · exact List.mem_append_left _ (ih ha)

/-! ## The immediate dominator -/

theorem StrictlyDominates.trans (hab : StrictlyDominates roots edge a b)
    (hbc : Dominates roots edge b c) (hc : IsReached roots edge c) : StrictlyDominates roots edge a c := by
  refine ⟨?_, hab.2.trans hbc⟩
  rintro rfl
  exact hab.1 (hab.2.antisymm hbc hc)

/-- Behind a dominator a walk goes on to the node without what strictly dominates the dominator. -/
theorem StrictlyDominates.leads (hab : StrictlyDominates roots edge a b) (hbc : Dominates roots edge b c)
    (hc : IsReached roots edge c) : Relation.ReflTransGen (fun x y => edge x y ∧ y ≠ a) b c := by
  obtain ⟨path, hpath⟩ := hc
  induction hpath with
  | root hroot =>
      rw [(dominates_root hroot).mp hbc]
  | @step source c path hwalk hedge ih =>
      by_cases hne : b = c
      · rw [hne]
      · have hsource : Dominates roots edge b source := fun path' hpath' =>
          (List.mem_append.mp (hbc _ (hpath'.step hedge))).resolve_right fun hmem => hne (List.mem_singleton.mp hmem)
        refine (ih hsource).tail ⟨hedge, ?_⟩
        rintro rfl
        exact hab.1 (hab.2.antisymm hbc ⟨_, hwalk.step hedge⟩)

/-- The dominators of a strict dominator are fewer. -/
theorem card_lt_of_strictlyDominates (sets : Node → Finset Node)
    (hsets : ∀ node, IsReached roots edge node → ∀ a, a ∈ sets node ↔ Dominates roots edge a node)
    (h : StrictlyDominates roots edge a b) (hb : IsReached roots edge b) :
    (sets a).card < (sets b).card := by
  have ha := h.2.isReached hb
  refine Finset.card_lt_card (Finset.ssubset_iff_subset_ne.mpr ⟨fun x hx => ?_, fun heq => ?_⟩)
  · exact (hsets b hb x).mpr (((hsets a ha x).mp hx).trans h.2)
  · have hself : b ∈ sets a := by
      rw [heq]
      exact (hsets b hb b).mpr (Dominates.refl roots edge b)
    exact h.1 (h.2.antisymm ((hsets a ha b).mp hself) ha)

/-- **The strict dominator with the most dominators is the immediate one.** -/
theorem isImmediate_of_greatest (sets : Node → Finset Node)
    (hsets : ∀ node, IsReached roots edge node → ∀ a, a ∈ sets node ↔ Dominates roots edge a node)
    (hnode : IsReached roots edge node) (ha : StrictlyDominates roots edge a node)
    (hgreatest : ∀ other, StrictlyDominates roots edge other node → (sets other).card ≤ (sets a).card) :
    IsImmediate roots edge a node := by
  refine ⟨ha, fun other hother => ?_⟩
  rcases dominates_total hother.2 ha.2 hnode with h | h
  · exact h
  · by_cases heq : a = other
    · rw [heq]
      exact Dominates.refl roots edge other
    · have hlt := card_lt_of_strictlyDominates sets hsets ⟨heq, h⟩ (hother.2.isReached hnode)
      exact absurd (hgreatest other hother) (Nat.not_le.mpr hlt)

theorem IsImmediate.unique (ha : IsImmediate roots edge a node) (hb : IsImmediate roots edge b node)
    (hnode : IsReached roots edge node) : a = b :=
  (hb.2 a ha.1).antisymm (ha.2 b hb.1) (ha.1.2.isReached hnode)

/-- What dominates a node is the node or dominates its immediate dominator. -/
theorem IsImmediate.dominates_iff (h : IsImmediate roots edge b node) :
    Dominates roots edge a node ↔ a = node ∨ Dominates roots edge a b := by
  constructor
  · intro ha
    by_cases heq : a = node
    · exact Or.inl heq
    · exact Or.inr (h.2 a ⟨heq, ha⟩)
  · rintro (rfl | ha)
    · exact Dominates.refl roots edge a
    · exact ha.trans h.1.2

theorem exists_isImmediate (sets : Node → Finset Node)
    (hsets : ∀ node, IsReached roots edge node → ∀ a, a ∈ sets node ↔ Dominates roots edge a node)
    (hnode : IsReached roots edge node) (ha : StrictlyDominates roots edge a node) :
    ∃ b, IsImmediate roots edge b node := by
  classical
  have hmem : ∀ x, x ∈ (sets node).erase node ↔ StrictlyDominates roots edge x node := by
    intro x
    rw [Finset.mem_erase, hsets node hnode]
    rfl
  obtain ⟨b, hb, hgreatest⟩ :=
    ((sets node).erase node).exists_max_image (fun x => (sets x).card) ⟨a, (hmem a).mpr ha⟩
  exact ⟨b, isImmediate_of_greatest sets hsets hnode ((hmem b).mp hb) fun other hother =>
    hgreatest other ((hmem other).mpr hother)⟩

/-- **The way up the immediate dominators meets the dominators and nothing else.** -/
theorem climbs_iff_dominates (sets : Node → Finset Node)
    (hsets : ∀ node, IsReached roots edge node → ∀ a, a ∈ sets node ↔ Dominates roots edge a node)
    (hnode : IsReached roots edge node) :
    Relation.ReflTransGen (fun child parent => IsReached roots edge child ∧ IsImmediate roots edge parent child)
      node a ↔ Dominates roots edge a node := by
  constructor
  · intro h
    induction h with
    | refl => exact Dominates.refl roots edge node
    | tail _ hstep ih => exact hstep.2.1.2.trans ih
  · -- the parent of a node has fewer dominators
    induction hcard : (sets node).card using Nat.strong_induction_on generalizing node with
    | h card ih =>
        intro ha
        by_cases hne : a = node
        · rw [hne]
        · obtain ⟨b, hb⟩ := exists_isImmediate sets hsets hnode ⟨hne, ha⟩
          have hlt := card_lt_of_strictlyDominates sets hsets hb.1 hnode
          rw [hcard] at hlt
          exact (ih _ hlt (hb.1.2.isReached hnode) rfl (hb.2 a ⟨hne, ha⟩)).head ⟨hnode, hb⟩

/-- A join with one source of its edges is in no frontier, unless it is a root. -/
theorem not_inFrontier_of_single {join source : Node} (hroot : ¬ roots join)
    (hjoin : IsReached roots edge join) (hsingle : ∀ other, edge other join → other = source) :
    ¬ InFrontier roots edge a join := by
  rintro ⟨⟨other, hedge, ha⟩, hnot⟩
  obtain rfl := hsingle other hedge
  have hsource : Dominates roots edge other join := by
    rw [Dominators.dominates_iff hroot]
    right
    intro other' hedge'
    rw [hsingle other' hedge']
    exact Dominates.refl roots edge _
  have hself : a = join := by
    by_contra hne
    exact hnot ⟨hne, ha.trans hsource⟩
  subst hself
  have hloop := ha.antisymm hsource hjoin
  -- the join would have to be reached before it is reached
  obtain ⟨path, hpath⟩ := hjoin
  have hnever : ∀ {node path}, Walk roots edge node path → node ≠ a := by
    intro node path hwalk
    induction hwalk with
    | root hroot' =>
        rintro rfl
        exact hroot hroot'
    | step hwalk hlast ih =>
        intro heq
        rw [heq] at hlast
        exact ih ((hsingle _ hlast).trans hloop.symm)
  exact hnever hpath rfl

end Tala.Library.Dominators
