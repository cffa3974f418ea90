import Mathlib.Algebra.Order.Monoid.Unbundled.MinMax
import Mathlib.Algebra.Order.Group.Nat
import Mathlib.Data.List.Chain
import Tala.Library.DepthFirst
import Tala.Library.Search

/-!
# `Library.Components` — strongly connected components in two searches

The first search goes depth first from each node of a list and notes the order in which nodes are finished.
The second one takes the nodes in the reverse of that order and collects, against the edges, what has not
been collected. `Forest` is the invariant of the first search: what a finished node leads to is finished
before it, or there is a node of its component that is finished later (`Finishes`). So a node that is last
of its component to be finished leads to nothing later, and each of the collected sets is one component
(`components_spec`).
-/

namespace Tala.Library.Components

open DepthFirst Search

variable {Node : Type} [DecidableEq Node]

/-- Search on from a node, unless an earlier search has discovered it. -/
def finishFrom (successors : Node → List Node) (steps : Nat) (t : Traversal Node) (start : Node) :
    Traversal Node :=
  if start ∈ t.preorder then t
  else (Traversal.step successors)^[steps] ⟨t.preorder ++ [start], t.postorder, [⟨start, 0⟩]⟩

/-- The nodes in the order in which they are finished. -/
def finishOrder (nodes : List Node) (successors : Node → List Node) (steps : Nat) : List Node :=
  (nodes.foldl (finishFrom successors steps) ⟨[], [], []⟩).postorder

/-- Collect what leads to a node and has not been visited. -/
def collect (predecessors : Node → List Node) (steps : Nat) (found : Finset Node × List (Finset Node))
    (current : Node) : Finset Node × List (Finset Node) :=
  if current ∈ found.1 then found
  else
    let seen := ((Worklist.step predecessors)^[steps] ⟨insert current found.1, [current]⟩).seen
    (seen, found.2 ++ [seen \ found.1])

def components (order : List Node) (predecessors : Node → List Node) (steps : Nat) : List (Finset Node) :=
  (order.reverse.foldl (collect predecessors steps) (∅, [])).2

variable {successors predecessors : Node → List Node} {nodes : List Node} {t : Traversal Node}
  {a b c : Node}

/-- In one component. -/
def Mutual (successors : Node → List Node) (a b : Node) : Prop :=
  Reachable successors a b ∧ Reachable successors b a

omit [DecidableEq Node] in
theorem Mutual.symm (h : Mutual successors a b) : Mutual successors b a := ⟨h.2, h.1⟩

omit [DecidableEq Node] in
theorem Mutual.trans (hab : Mutual successors a b) (hbc : Mutual successors b c) : Mutual successors a c :=
  ⟨hab.1.trans hbc.1, hbc.2.trans hab.2⟩

omit [DecidableEq Node] in
theorem Mutual.refl (successors : Node → List Node) (a : Node) : Mutual successors a a :=
  ⟨Relation.ReflTransGen.refl, Relation.ReflTransGen.refl⟩

/-! ## The first search -/

/-- What a finished node leads to is finished before it, or a later node is in its component. The later nodes
are those of the order and some that are under way. -/
def FinishesBefore (successors : Node → List Node) (order pending : List Node) : Prop :=
  ∀ before node after, order = before ++ node :: after → ∀ other, Reachable successors node other →
    other ∈ before ∨ other = node ∨ ∃ later ∈ after ++ pending, Mutual successors node later

/-- The invariant of a search from several nodes. -/
structure Forest (successors : Node → List Node) (t : Traversal Node) : Prop where
  perm : t.preorder.Perm (t.postorder ++ t.stack.map TraversalFrame.block)
  nodup : t.preorder.Nodup
  advanced : ∀ frame ∈ t.stack, ∀ i < frame.nextSuccessor, ∀ target,
    (successors frame.block)[i]? = some target → target ∈ t.preorder
  finished : ∀ node ∈ t.postorder, ∀ target ∈ successors node, target ∈ t.preorder
  /-- A node on the stack was met as a successor of the one below. -/
  chain : (t.stack.map TraversalFrame.block).IsChain fun above below => above ∈ successors below
  order : FinishesBefore successors t.postorder (t.stack.map TraversalFrame.block)

variable {node target : Node} {before after order : List Node} {steps : Nat}

omit [DecidableEq Node] in
/-- The nodes below on the stack lead to the top one. -/
theorem reachable_of_chain {below : List Node}
    (h : (node :: below).IsChain fun above below => above ∈ successors below) :
    ∀ other ∈ below, Reachable successors other node := by
  induction below generalizing node with
  | nil =>
      intro other hother
      cases hother
  | cons next rest ih =>
      obtain ⟨hedge, hrest⟩ := List.isChain_cons_cons.mp h
      have hnext : Reachable successors next node := Relation.ReflTransGen.single hedge
      intro other hother
      rcases List.mem_cons.mp hother with rfl | hother
      · exact hnext
      · exact (ih hrest other hother).trans hnext

omit [DecidableEq Node] in
/-- A decomposition of a list with one more element at its end. -/
theorem append_singleton_eq {list : List Node} {last : Node} (h : list ++ [last] = before ++ node :: after) :
    (after = [] ∧ before = list ∧ node = last) ∨
      ∃ rest, after = rest ++ [last] ∧ list = before ++ node :: rest := by
  rcases List.eq_nil_or_concat after with rfl | ⟨rest, final, rfl⟩
  · left
    have hinj := List.append_inj' h rfl
    exact ⟨rfl, hinj.1.symm, (List.cons.inj hinj.2).1.symm⟩
  · right
    rw [List.concat_eq_append, ← List.cons_append, ← List.append_assoc] at h
    have hinj := List.append_inj' h rfl
    refine ⟨rest, ?_, hinj.1⟩
    rw [List.concat_eq_append, (List.cons.inj hinj.2).1]

variable {below : List (TraversalFrame Node)} {frame : TraversalFrame Node}

omit [DecidableEq Node] in
/-- What the top node leads to when all of its successors are discovered. -/
theorem Forest.reaches (h : Forest successors t) (hstack : t.stack = frame :: below)
    (hnext : (successors frame.block)[frame.nextSuccessor]? = none) {other : Node}
    (hreach : Reachable successors frame.block other) :
    other ∈ t.postorder ∨ other = frame.block ∨
      ∃ later ∈ below.map TraversalFrame.block, Mutual successors frame.block later := by
  have hchain := h.chain
  rw [hstack, List.map_cons] at hchain
  have hdiscovered := Traversal.mem_of_passed (h.advanced frame (by rw [hstack]; exact List.mem_cons_self)) hnext
  -- the walk stays among finished nodes until it meets one on the stack
  induction hreach with
  | refl => exact Or.inr (Or.inl rfl)
  | @tail source target hwalk hedge ih =>
      have hmem : source ∈ t.postorder ∨ source = frame.block → target ∈ t.preorder := by
        rintro (hsource | rfl)
        · exact h.finished source hsource target hedge
        · exact hdiscovered target hedge
      have hcases : target ∈ t.preorder → target ∈ t.postorder ∨ target = frame.block ∨
          ∃ later ∈ below.map TraversalFrame.block, Mutual successors frame.block later := by
        intro htarget
        rw [h.perm.mem_iff, hstack, List.map_cons, List.mem_append, List.mem_cons] at htarget
        refine htarget.imp id (Or.imp id fun hbelow => ⟨target, hbelow, ?_, ?_⟩)
        · exact hwalk.tail hedge
        · exact reachable_of_chain hchain target hbelow
      rcases ih with hsource | hsource | hlater
      · exact hcases (hmem (Or.inl hsource))
      · exact hcases (hmem (Or.inr hsource))
      · exact Or.inr (Or.inr hlater)

omit [DecidableEq Node] in
/-- A finished top node goes to the end of the order. -/
theorem Forest.retire (h : Forest successors t) (hstack : t.stack = frame :: below)
    (hnext : (successors frame.block)[frame.nextSuccessor]? = none) :
    Forest successors ⟨t.preorder, t.postorder ++ [frame.block], below⟩ where
  perm := by
    have hperm := h.perm
    rw [hstack, List.map_cons] at hperm
    simpa using hperm
  nodup := h.nodup
  advanced := by
    intro other hother
    exact h.advanced other (by rw [hstack]; exact List.mem_cons_of_mem _ hother)
  finished := by
    intro node hnode target htarget
    rcases List.mem_append.mp hnode with hnode | hnode
    · exact h.finished node hnode target htarget
    · rw [List.mem_singleton.mp hnode] at htarget
      exact Traversal.mem_of_passed (h.advanced frame (by rw [hstack]; exact List.mem_cons_self)) hnext target htarget
  chain := by
    have hchain := h.chain
    rw [hstack, List.map_cons] at hchain
    exact hchain.tail
  order := by
    intro before node after hsplit other hreach
    rcases append_singleton_eq hsplit with ⟨rfl, rfl, rfl⟩ | ⟨rest, rfl, hold⟩
    · exact h.reaches hstack hnext hreach
    · refine (h.order before node rest hold other hreach).imp id (Or.imp id ?_)
      rintro ⟨later, hlater, hmutual⟩
      refine ⟨later, ?_, hmutual⟩
      rw [hstack, List.map_cons] at hlater
      rw [List.append_assoc]
      exact hlater

omit [DecidableEq Node] in
theorem Forest.revisit (h : Forest successors t) (hstack : t.stack = frame :: below)
    (hnext : (successors frame.block)[frame.nextSuccessor]? = some target) (hmem : target ∈ t.preorder) :
    Forest successors ⟨t.preorder, t.postorder, ⟨frame.block, frame.nextSuccessor + 1⟩ :: below⟩ where
  perm := by
    have hperm := h.perm
    rw [hstack] at hperm
    exact hperm
  nodup := h.nodup
  advanced := by
    intro other hother
    rcases List.mem_cons.mp hother with rfl | hother
    · intro i hi node hnode
      rcases Nat.lt_succ_iff_lt_or_eq.mp hi with hlt | rfl
      · exact h.advanced frame (by rw [hstack]; exact List.mem_cons_self) i hlt node hnode
      · rw [hnext] at hnode
        exact Option.some.inj hnode ▸ hmem
    · exact h.advanced other (by rw [hstack]; exact List.mem_cons_of_mem _ hother)
  finished := h.finished
  chain := by
    have hchain := h.chain
    rw [hstack] at hchain
    exact hchain
  order := by
    have horder := h.order
    rw [hstack] at horder
    exact horder

omit [DecidableEq Node] in
theorem FinishesBefore.weaken {pending pending' : List Node}
    (h : FinishesBefore successors order pending) (hsub : ∀ node ∈ pending, node ∈ pending') :
    FinishesBefore successors order pending' := by
  intro before node after hsplit other hreach
  refine (h before node after hsplit other hreach).imp id (Or.imp id ?_)
  rintro ⟨later, hlater, hmutual⟩
  refine ⟨later, ?_, hmutual⟩
  exact List.mem_append.mpr ((List.mem_append.mp hlater).imp id (hsub later))

omit [DecidableEq Node] in
theorem nodup_append_new {list : List Node} (h : list.Nodup) (hnew : node ∉ list) : (list ++ [node]).Nodup := by
  rw [List.nodup_append]
  refine ⟨h, List.nodup_singleton _, ?_⟩
  intro other hother same hsame heq
  rw [List.mem_singleton.mp hsame] at heq
  exact hnew (heq ▸ hother)

omit [DecidableEq Node] in
theorem Forest.discover (h : Forest successors t) (hstack : t.stack = frame :: below)
    (hnext : (successors frame.block)[frame.nextSuccessor]? = some target) (hmem : target ∉ t.preorder) :
    Forest successors ⟨t.preorder ++ [target], t.postorder,
      ⟨target, 0⟩ :: ⟨frame.block, frame.nextSuccessor + 1⟩ :: below⟩ where
  perm := by
    have hperm := h.perm.append_right [target]
    rw [hstack] at hperm
    refine hperm.trans ?_
    rw [List.append_assoc]
    exact List.Perm.append_left _ List.perm_append_comm
  nodup := nodup_append_new h.nodup hmem
  advanced := by
    intro other hother i hi node hnode
    rcases List.mem_cons.mp hother with rfl | hother
    · exact absurd hi (Nat.not_lt_zero i)
    apply List.mem_append.mpr
    rcases List.mem_cons.mp hother with rfl | hother
    · rcases Nat.lt_succ_iff_lt_or_eq.mp hi with hlt | rfl
      · exact Or.inl (h.advanced frame (by rw [hstack]; exact List.mem_cons_self) i hlt node hnode)
      · rw [hnext] at hnode
        exact Or.inr (List.mem_singleton.mpr (Option.some.inj hnode).symm)
    · exact Or.inl (h.advanced other (by rw [hstack]; exact List.mem_cons_of_mem _ hother) i hi node hnode)
  finished := by
    intro node hnode other hother
    exact List.mem_append_left _ (h.finished node hnode other hother)
  chain := by
    have hchain := h.chain
    rw [hstack] at hchain
    exact List.isChain_cons_cons.mpr ⟨List.mem_of_getElem? hnext, hchain⟩
  order := by
    apply h.order.weaken
    intro node hnode
    rw [hstack] at hnode
    exact List.mem_cons_of_mem _ hnode

theorem Forest.step (h : Forest successors t) : Forest successors (t.step successors) := by
  rcases Traversal.step_cases successors t with ⟨_, hstep⟩ | ⟨frame, below, hstack, hnext, hstep⟩ |
    ⟨frame, below, target, hstack, hnext, ⟨hmem, hstep⟩ | ⟨hmem, hstep⟩⟩
  all_goals rw [hstep]
  · exact h
  · exact h.retire hstack hnext
  · exact h.revisit hstack hnext hmem
  · exact h.discover hstack hnext hmem

theorem Forest.iterate (h : Forest successors t) (steps : Nat) :
    Forest successors ((Traversal.step successors)^[steps] t) := by
  induction steps with
  | zero => exact h
  | succ steps ih =>
      rw [Function.iterate_succ_apply']
      exact ih.step

/-- The discovered nodes only grow, and stay within a closed list. -/
theorem step_discovers (h : Forest successors t)
    (hclosed : ∀ node ∈ nodes, ∀ target ∈ successors node, target ∈ nodes)
    (hwithin : ∀ node ∈ t.preorder, node ∈ nodes) :
    (∀ node ∈ t.preorder, node ∈ (t.step successors).preorder) ∧
      ∀ node ∈ (t.step successors).preorder, node ∈ nodes := by
  rcases Traversal.step_cases successors t with ⟨_, hstep⟩ | ⟨frame, below, hstack, hnext, hstep⟩ |
    ⟨frame, below, target, hstack, hnext, ⟨hmem, hstep⟩ | ⟨hmem, hstep⟩⟩
  all_goals rw [hstep]
  iterate 3 exact ⟨fun _ hnode => hnode, hwithin⟩
  · refine ⟨fun _ hnode => List.mem_append_left _ hnode, fun node hnode => ?_⟩
    rcases List.mem_append.mp hnode with hnode | hnode
    · exact hwithin node hnode
    · have hframe : frame.block ∈ t.preorder := by
        rw [h.perm.mem_iff, hstack]
        simp
      rw [List.mem_singleton.mp hnode]
      exact hclosed _ (hwithin _ hframe) target (List.mem_of_getElem? hnext)

theorem iterate_discovers (h : Forest successors t)
    (hclosed : ∀ node ∈ nodes, ∀ target ∈ successors node, target ∈ nodes)
    (hwithin : ∀ node ∈ t.preorder, node ∈ nodes) (steps : Nat) :
    (∀ node ∈ t.preorder, node ∈ ((Traversal.step successors)^[steps] t).preorder) ∧
      ∀ node ∈ ((Traversal.step successors)^[steps] t).preorder, node ∈ nodes := by
  induction steps with
  | zero => exact ⟨fun _ hnode => hnode, hwithin⟩
  | succ steps ih =>
      rw [Function.iterate_succ_apply']
      obtain ⟨hgrows, hstays⟩ := step_discovers (h.iterate steps) hclosed ih.2
      exact ⟨fun node hnode => hgrows node (ih.1 node hnode), hstays⟩

/-- A search between two starts: ended, and within the nodes. -/
structure Rests (successors : Node → List Node) (nodes : List Node) (t : Traversal Node) : Prop where
  forest : Forest successors t
  ended : t.stack = []
  within : ∀ node ∈ t.preorder, node ∈ nodes

omit [DecidableEq Node] in
/-- A new start, with nothing under way. -/
theorem Rests.start (h : Rests successors nodes t) {start : Node} (hnew : start ∉ t.preorder) :
    Forest successors ⟨t.preorder ++ [start], t.postorder, [⟨start, 0⟩]⟩ where
  perm := by
    have hperm := h.forest.perm
    rw [h.ended, List.map_nil, List.append_nil] at hperm
    exact hperm.append_right [start]
  nodup := nodup_append_new h.forest.nodup hnew
  advanced := by
    intro frame hframe i hi
    rw [List.mem_singleton.mp hframe] at hi
    exact absurd hi (Nat.not_lt_zero i)
  finished := by
    intro node hnode target htarget
    exact List.mem_append_left _ (h.forest.finished node hnode target htarget)
  chain := List.isChain_singleton _
  order := by
    apply h.forest.order.weaken
    intro node hnode
    rw [h.ended] at hnode
    cases hnode

/-- Every search ends and discovers its start. -/
theorem Rests.finishFrom (h : Rests successors nodes t) (hnodup : nodes.Nodup)
    (hclosed : ∀ node ∈ nodes, ∀ target ∈ successors node, target ∈ nodes)
    (hsteps : (nodes.map (Traversal.cost successors)).sum ≤ steps) {start : Node} (hstart : start ∈ nodes) :
    Rests successors nodes (finishFrom successors steps t start) ∧
      start ∈ (finishFrom successors steps t start).preorder ∧
      ∀ node ∈ t.preorder, node ∈ (finishFrom successors steps t start).preorder := by
  unfold Components.finishFrom
  by_cases hnew : start ∈ t.preorder
  · rw [if_pos hnew]
    exact ⟨h, hnew, fun _ hnode => hnode⟩
  · rw [if_neg hnew]
    have hforest := h.start hnew
    have hwithin : ∀ node ∈ t.preorder ++ [start], node ∈ nodes := by
      intro node hnode
      rcases List.mem_append.mp hnode with hnode | hnode
      · exact h.within node hnode
      · exact List.mem_singleton.mp hnode ▸ hstart
    obtain ⟨hgrows, hstays⟩ := iterate_discovers hforest hclosed hwithin steps
    refine ⟨⟨hforest.iterate steps, ?_, hstays⟩, ?_, ?_⟩
    · apply iterate_ended hnodup hclosed steps
      · intro frame hframe
        rw [List.mem_singleton.mp hframe]
        exact hstart
      · have hsum := Traversal.sum_undiscovered hnodup hstart hnew (Traversal.cost successors)
        have hle : ((Traversal.undiscovered nodes t.preorder).map (Traversal.cost successors)).sum
            ≤ (nodes.map (Traversal.cost successors)).sum :=
          (List.filter_sublist.map _).sum_le_sum fun _ _ => Nat.zero_le _
        have hcost : Traversal.frameCost successors ⟨start, 0⟩ = Traversal.cost successors start := by
          simp [Traversal.frameCost, Traversal.cost]
        simp only [Traversal.remaining, List.map_cons, List.map_nil, List.sum_cons, List.sum_nil, hcost]
        omega
    · exact hgrows start (List.mem_append_right _ (List.mem_singleton_self start))
    · exact fun node hnode => hgrows node (List.mem_append_left _ hnode)

theorem Rests.foldl (h : Rests successors nodes t) (hnodup : nodes.Nodup)
    (hclosed : ∀ node ∈ nodes, ∀ target ∈ successors node, target ∈ nodes)
    (hsteps : (nodes.map (Traversal.cost successors)).sum ≤ steps) {starts : List Node}
    (hstarts : ∀ start ∈ starts, start ∈ nodes) :
    Rests successors nodes (starts.foldl (Components.finishFrom successors steps) t) ∧
      ∀ node, node ∈ t.preorder ∨ node ∈ starts →
        node ∈ (starts.foldl (Components.finishFrom successors steps) t).preorder := by
  induction starts generalizing t with
  | nil => exact ⟨h, fun node hnode => hnode.elim id fun hnil => absurd hnil List.not_mem_nil⟩
  | cons start rest ih =>
      obtain ⟨hrests, hfound, hgrows⟩ := h.finishFrom hnodup hclosed hsteps (hstarts start List.mem_cons_self)
      obtain ⟨hlast, hall⟩ := ih hrests fun other hother => hstarts other (List.mem_cons_of_mem _ hother)
      refine ⟨hlast, fun node hnode => hall node ?_⟩
      rcases hnode with hnode | hnode
      · exact Or.inl (hgrows node hnode)
      · rcases List.mem_cons.mp hnode with rfl | hnode
        · exact Or.inl hfound
        · exact Or.inr hnode

/-- What the order of finishing is good for. -/
structure IsFinishOrder (successors : Node → List Node) (nodes order : List Node) : Prop where
  mem_iff : ∀ node, node ∈ order ↔ node ∈ nodes
  nodup : order.Nodup
  finishes : FinishesBefore successors order []

/-- **The first search finishes every node once, and what it leads to before it or its component.** -/
theorem finishOrder_spec (hnodup : nodes.Nodup)
    (hclosed : ∀ node ∈ nodes, ∀ target ∈ successors node, target ∈ nodes)
    (hsteps : (nodes.map (Traversal.cost successors)).sum ≤ steps) :
    IsFinishOrder successors nodes (finishOrder nodes successors steps) := by
  have hempty : Rests successors nodes ⟨[], [], []⟩ := by
    refine ⟨⟨List.Perm.refl _, List.nodup_nil, ?_, ?_, List.isChain_nil, ?_⟩, rfl, ?_⟩
    · intro frame hframe
      cases hframe
    · intro node hnode
      cases hnode
    · intro before node after hsplit
      simp at hsplit
    · intro node hnode
      cases hnode
  obtain ⟨hrests, hall⟩ := hempty.foldl hnodup hclosed hsteps fun _ hstart => hstart
  have hperm := hrests.forest.perm
  have horder := hrests.forest.order
  rw [hrests.ended, List.map_nil] at hperm horder
  rw [List.append_nil] at hperm
  refine ⟨fun node => ⟨fun hnode => ?_, fun hnode => ?_⟩, ?_, horder⟩
  · exact hrests.within node (hperm.mem_iff.mpr hnode)
  · exact hperm.mem_iff.mp (hall node (Or.inr hnode))
  · exact hperm.nodup_iff.mp hrests.forest.nodup

/-! ## The second search -/

omit [DecidableEq Node] in
/-- The node of a component that is last to be finished: what it leads to is not finished later. -/
theorem exists_last (h : FinishesBefore successors order []) (hnode : node ∈ order) :
    ∃ before last after, order = before ++ last :: after ∧ Mutual successors node last ∧
      ∀ other, Reachable successors last other → other ∈ before ∨ other = last := by
  obtain ⟨before, after, hsplit⟩ := List.append_of_mem hnode
  clear hnode
  induction hlength : after.length using Nat.strong_induction_on generalizing before node after with
  | h length ih =>
      by_cases hlater : ∃ later ∈ after, Mutual successors node later
      · obtain ⟨later, hmem, hmutual⟩ := hlater
        obtain ⟨first, rest, rfl⟩ := List.append_of_mem hmem
        have hshorter : rest.length < length := by
          rw [← hlength, List.length_append, List.length_cons]
          omega
        obtain ⟨before', last, after', hsplit', hlast, hleads⟩ :=
          @ih rest.length hshorter later (before ++ node :: first) rest (by rw [hsplit]; simp) rfl
        exact ⟨before', last, after', hsplit', hmutual.trans hlast, hleads⟩
      · refine ⟨before, node, after, hsplit, Mutual.refl successors node, fun other hreach => ?_⟩
        rcases h before node after hsplit other hreach with hbefore | heq | ⟨later, hmem, hmutual⟩
        · exact Or.inl hbefore
        · exact Or.inr heq
        · rw [List.append_nil] at hmem
          exact absurd ⟨later, hmem, hmutual⟩ hlater

omit [DecidableEq Node] in
/-- What leads to a node of the end of the order is in a component that the end has a node of. -/
theorem IsFinishOrder.mutual_after
    (h : IsFinishOrder successors nodes order) (hsplit : order = before ++ after) {source : Node}
    (hsource : source ∈ nodes) (htarget : target ∈ after) (hreach : Reachable successors source target) :
    ∃ later ∈ after, Mutual successors source later := by
  obtain ⟨first, last, rest, hlast, hmutual, hleads⟩ := exists_last h.finishes ((h.mem_iff source).mpr hsource)
  refine ⟨last, ?_, hmutual⟩
  by_contra hnot
  -- all of the end comes after the last node, but that leads to a node of the end
  have hbefore : last ∈ before ∧ ∀ node ∈ first, node ∈ before := by
    rw [hsplit] at hlast
    rcases List.append_eq_append_iff.mp hlast with ⟨middle, rfl, hafter⟩ | ⟨middle, rfl, hafter⟩
    · exact absurd (by rw [hafter]; exact List.mem_append_right _ List.mem_cons_self) hnot
    · cases middle with
      | nil => exact absurd (by rw [← List.nil_append after, ← hafter]; exact List.mem_cons_self) hnot
      | cons node middle =>
          rw [List.cons_append, List.cons.injEq] at hafter
          refine ⟨List.mem_append_right _ ?_, fun node hnode => List.mem_append_left _ hnode⟩
          rw [hafter.1]
          exact List.mem_cons_self
  have htarget' : target ∈ before := by
    rcases hleads target (hmutual.2.trans hreach) with hmem | rfl
    · exact hbefore.2 target hmem
    · exact hbefore.1
  have hnodup := h.nodup
  rw [hsplit, List.nodup_append] at hnodup
  exact hnodup.2.2 target htarget' target htarget rfl

/-- What has been collected from the end of an order. -/
structure Collected (successors : Node → List Node) (after : List Node)
    (found : Finset Node × List (Finset Node)) : Prop where
  visited : ∀ node, node ∈ found.1 ↔ ∃ root ∈ after, Mutual successors node root
  sound : ∀ set ∈ found.2, ∃ root ∈ after, ∀ node, node ∈ set ↔ Mutual successors node root
  complete : ∀ root ∈ after, ∃ set ∈ found.2, ∀ node, node ∈ set ↔ Mutual successors node root

section Second

variable {order : List Node} {steps : Nat}

/-- What the graph and its reversed edges have to do with each other. -/
structure Dual (successors predecessors : Node → List Node) (nodes : List Node) : Prop where
  edge_iff : ∀ a b, a ∈ predecessors b ↔ b ∈ successors a
  successor : ∀ node ∈ nodes, ∀ target ∈ successors node, target ∈ nodes
  predecessor : ∀ node ∈ nodes, ∀ source ∈ predecessors node, source ∈ nodes

omit [DecidableEq Node] in
theorem Dual.reachable (h : Dual successors predecessors nodes) :
    Relation.ReflTransGen (fun x y => y ∈ predecessors x) a b ↔ Reachable successors b a := by
  unfold Reachable
  rw [← Relation.reflTransGen_swap]
  have hswap : (Function.swap fun x y => y ∈ predecessors x) = fun x y => y ∈ successors x := by
    funext x y
    exact propext (h.edge_iff x y)
  rw [hswap]

omit [DecidableEq Node] in
theorem Dual.leads_mem (h : Dual successors predecessors nodes) (hmem : b ∈ nodes)
    (hreach : Reachable successors a b) : a ∈ nodes := by
  have hled := h.reachable.mpr hreach
  clear hreach
  induction hled with
  | refl => exact hmem
  | tail _ hedge ih => exact h.predecessor _ ih _ hedge

omit [DecidableEq Node] in
theorem Dual.reachable_mem (h : Dual successors predecessors nodes) (hmem : a ∈ nodes)
    (hreach : Reachable successors a b) : b ∈ nodes := by
  induction hreach with
  | refl => exact hmem
  | tail _ hedge ih => exact h.successor _ ih _ hedge

variable {found : Finset Node × List (Finset Node)}

/-- The search against the edges from a node that has not been visited finds its component. -/
theorem Collected.seen (hdual : Dual successors predecessors nodes)
    (hfinish : IsFinishOrder successors nodes order) {root : Node} (hsplit : order = before ++ root :: after)
    (h : Collected successors after found) (hnew : root ∉ found.1) (hsteps : 2 * nodes.length ≤ steps)
    (node : Node) :
    node ∈ ((Worklist.step predecessors)^[steps] ⟨insert root found.1, [root]⟩).seen ↔
      node ∈ found.1 ∨ Mutual successors node root := by
  have hmem : ∀ other ∈ root :: after, other ∈ nodes := by
    intro other hother
    rw [← hfinish.mem_iff, hsplit]
    exact List.mem_append_right _ hother
  have hroot := hmem root List.mem_cons_self
  have hvisited : ∀ other ∈ found.1, other ∈ nodes := by
    intro other hother
    obtain ⟨later, hlater, hmutual⟩ := (h.visited other).mp hother
    exact hdual.reachable_mem (hmem later (List.mem_cons_of_mem _ hlater)) hmutual.2
  -- nothing that has not been visited leads to what has
  have hleads : ∀ other ∈ found.1, ∀ source, Reachable successors source other → source ∈ found.1 := by
    intro other hother source hreach
    obtain ⟨later, hlater, hmutual⟩ := (h.visited other).mp hother
    have hsplit' : order = (before ++ [root]) ++ after := by rw [hsplit, List.append_assoc]; rfl
    obtain ⟨last, hlast, hsame⟩ := hfinish.mutual_after hsplit'
      (hdual.leads_mem (hvisited other hother) hreach) hlater (hreach.trans hmutual.1)
    exact (h.visited source).mpr ⟨last, hlast, hsame⟩
  have hsound : Worklist.Sound predecessors (insert root found.1).toList ⟨insert root found.1, [root]⟩ := by
    refine ⟨fun other hother => Finset.mem_toList.mp hother, fun other hother => ?_, ?_, ?_⟩
    · exact ⟨other, Finset.mem_toList.mpr hother, Relation.ReflTransGen.refl⟩
    · intro other hother
      rw [List.mem_singleton.mp hother]
      exact Finset.mem_insert_self _ _
    · intro other hother hnot source hsource
      rcases Finset.mem_insert.mp hother with rfl | hother
      · exact absurd (List.mem_singleton_self _) hnot
      · apply Finset.mem_insert_of_mem
        exact hleads other hother source (Relation.ReflTransGen.single ((hdual.edge_iff _ _).mp hsource))
  have hempty : ((Worklist.step predecessors)^[steps] ⟨insert root found.1, [root]⟩).stack = [] := by
    apply @iterate_ends Node _ _ _ _ nodes.toFinset _ hsound
    · intro other hother
      rw [List.mem_toFinset]
      rcases Finset.mem_insert.mp hother with rfl | hother
      · exact hroot
      · exact hvisited other hother
    · have hless : (nodes.toFinset \ insert root found.1).card + 1 ≤ nodes.length := by
        refine le_trans (Nat.succ_le_of_lt (Finset.card_lt_card ?_)) (List.toFinset_card_le nodes)
        refine Finset.ssubset_iff_subset_ne.mpr ⟨Finset.sdiff_subset, fun heq => ?_⟩
        have hin := List.mem_toFinset.mpr hroot
        rw [← heq, Finset.mem_sdiff] at hin
        exact hin.2 (Finset.mem_insert_self _ _)
      show 2 * (nodes.toFinset \ insert root found.1).card + [root].length ≤ steps
      rw [List.length_singleton]
      omega
    · intro other hother source hsource
      exact List.mem_toFinset.mpr (hdual.predecessor other (List.mem_toFinset.mp hother) source hsource)
  rw [(hsound.iterate steps).mem_seen_iff hempty]
  constructor
  · rintro ⟨first, hfirst, hled⟩
    have hreach := hdual.reachable.mp hled
    rcases Finset.mem_insert.mp (Finset.mem_toList.mp hfirst) with rfl | hfirst
    · -- a node that leads to the root and has not been visited is in its component
      by_cases hseen : node ∈ found.1
      · exact Or.inl hseen
      · right
        obtain ⟨last, hlast, hsame⟩ := hfinish.mutual_after hsplit
          (hdual.leads_mem hroot hreach) List.mem_cons_self hreach
        rcases List.mem_cons.mp hlast with rfl | hlast
        · exact hsame
        · exact absurd ((h.visited node).mpr ⟨last, hlast, hsame⟩) hseen
    · exact Or.inl (hleads first hfirst node hreach)
  · rintro (hseen | hmutual)
    · exact ⟨node, Finset.mem_toList.mpr (Finset.mem_insert_of_mem hseen), Relation.ReflTransGen.refl⟩
    · exact ⟨root, Finset.mem_toList.mpr (Finset.mem_insert_self _ _), hdual.reachable.mpr hmutual.1⟩

/-- Collecting one more node of the order. -/
theorem Collected.collect (hdual : Dual successors predecessors nodes)
    (hfinish : IsFinishOrder successors nodes order) {root : Node} (hsplit : order = before ++ root :: after)
    (h : Collected successors after found) (hsteps : 2 * nodes.length ≤ steps) :
    Collected successors (root :: after) (Components.collect predecessors steps found root) := by
  unfold Components.collect
  by_cases hroot : root ∈ found.1
  · rw [if_pos hroot]
    obtain ⟨later, hlater, hmutual⟩ := (h.visited root).mp hroot
    refine ⟨fun node => ⟨fun hnode => ?_, ?_⟩, fun set hset => ?_, fun other hother => ?_⟩
    · obtain ⟨other, hother, hsame⟩ := (h.visited node).mp hnode
      exact ⟨other, List.mem_cons_of_mem _ hother, hsame⟩
    · rintro ⟨other, hother, hsame⟩
      apply (h.visited node).mpr
      rcases List.mem_cons.mp hother with rfl | hother
      · exact ⟨later, hlater, hsame.trans hmutual⟩
      · exact ⟨other, hother, hsame⟩
    · obtain ⟨other, hother, hset⟩ := h.sound set hset
      exact ⟨other, List.mem_cons_of_mem _ hother, hset⟩
    · rcases List.mem_cons.mp hother with rfl | hother
      · obtain ⟨set, hset, hmem⟩ := h.complete later hlater
        refine ⟨set, hset, fun node => ?_⟩
        rw [hmem]
        exact ⟨fun hnode => hnode.trans hmutual.symm, fun hnode => hnode.trans hmutual⟩
      · exact h.complete other hother
  · rw [if_neg hroot]
    have hseen := h.seen hdual hfinish hsplit hroot hsteps
    have hset : ∀ node, node ∈ ((Worklist.step predecessors)^[steps] ⟨insert root found.1, [root]⟩).seen \ found.1
        ↔ Mutual successors node root := by
      intro node
      rw [Finset.mem_sdiff, hseen]
      constructor
      · rintro ⟨hnode | hnode, hnot⟩
        · exact absurd hnode hnot
        · exact hnode
      · intro hnode
        refine ⟨Or.inr hnode, fun hvisited => hroot ?_⟩
        obtain ⟨other, hother, hsame⟩ := (h.visited node).mp hvisited
        exact (h.visited root).mpr ⟨other, hother, hnode.symm.trans hsame⟩
    refine ⟨fun node => ?_, fun set hmem => ?_, fun other hother => ?_⟩
    · rw [hseen, h.visited, List.exists_mem_cons_iff, or_comm]
    · rcases List.mem_append.mp hmem with hmem | hmem
      · obtain ⟨other, hother, hset⟩ := h.sound set hmem
        exact ⟨other, List.mem_cons_of_mem _ hother, hset⟩
      · rw [List.mem_singleton.mp hmem]
        exact ⟨root, List.mem_cons_self, hset⟩
    · rcases List.mem_cons.mp hother with rfl | hother
      · exact ⟨_, List.mem_append_right _ (List.mem_singleton_self _), hset⟩
      · obtain ⟨set, hmem, hset⟩ := h.complete other hother
        exact ⟨set, List.mem_append_left _ hmem, hset⟩

/-- **The collected sets are the strongly connected components.** -/
theorem components_spec (hdual : Dual successors predecessors nodes)
    (hfinish : IsFinishOrder successors nodes order) (hsteps : 2 * nodes.length ≤ steps) :
    (∀ set ∈ components order predecessors steps, ∃ root ∈ nodes,
        ∀ node, node ∈ set ↔ Mutual successors node root) ∧
      ∀ root ∈ nodes, ∃ set ∈ components order predecessors steps,
        ∀ node, node ∈ set ↔ Mutual successors node root := by
  have hcollected : ∀ before after, order = before ++ after →
      Collected successors after
        (after.foldr (fun node found => Components.collect predecessors steps found node) (∅, [])) := by
    intro before after hsplit
    induction after generalizing before with
    | nil => exact ⟨by simp, by simp, by simp⟩
    | cons root after ih =>
        have hrest := ih (before ++ [root]) (by rw [hsplit, List.append_assoc]; rfl)
        exact hrest.collect hdual hfinish hsplit hsteps
  have hall := hcollected [] order rfl
  unfold components
  rw [List.foldl_reverse]
  constructor
  · intro set hset
    obtain ⟨root, hroot, hmem⟩ := hall.sound set hset
    exact ⟨root, (hfinish.mem_iff root).mp hroot, hmem⟩
  · intro root hroot
    exact hall.complete root ((hfinish.mem_iff root).mpr hroot)

end Second

end Tala.Library.Components
