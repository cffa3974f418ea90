import Mathlib.Order.Lattice
import Mathlib.Data.List.Perm.Basic
import Mathlib.Data.List.Nodup
import Mathlib.Logic.Relation
import Mathlib.Logic.Function.Iterate
import Mathlib.Algebra.Order.BigOperators.Group.List
import Mathlib.Algebra.Order.Ring.Int

/-!
# `Library.DepthFirst` — depth-first search with an explicit stack of frames

A frame is a node and the position of its next successor. `Traversal.step` either follows one successor
of the top frame or retires the frame; `traverse` takes a given number of steps, and a search that has
ended stays where it is. `Traversal.Sound` is the invariant of the steps. From it: a search that has
ended has discovered exactly the nodes that are reachable (`mem_preorder_iff`), each once, and the
postorder lists the same nodes (`postorder_perm`). `traverse_ended` says how many steps are enough.
-/

namespace Tala.Library.DepthFirst

variable {Node : Type} [DecidableEq Node]

/-- Reachability along successor lists. -/
def Reachable (successors : Node → List Node) : Node → Node → Prop :=
  Relation.ReflTransGen fun source target => target ∈ successors source

/-- A node under exploration and the index of its next successor. -/
structure TraversalFrame (Node : Type) where
  block : Node
  nextSuccessor : Nat
deriving DecidableEq

/-- A search in progress: what was discovered, what was finished, and the frames, the top first. -/
structure Traversal (Node : Type) where
  preorder : List Node
  postorder : List Node
  stack : List (TraversalFrame Node)
deriving DecidableEq

namespace Traversal

/-- The search before its first step. -/
def start (entry : Node) : Traversal Node := ⟨[entry], [], [⟨entry, 0⟩]⟩

/-- One iteration of the search loop. -/
def step (successors : Node → List Node) (t : Traversal Node) : Traversal Node :=
  match t.stack with
  | [] => t
  | frame :: below =>
      match (successors frame.block)[frame.nextSuccessor]? with
      | none => { t with postorder := t.postorder ++ [frame.block], stack := below }
      | some target =>
          let advanced := { frame with nextSuccessor := frame.nextSuccessor + 1 } :: below
          if target ∈ t.preorder then { t with stack := advanced }
          else { t with preorder := t.preorder ++ [target], stack := ⟨target, 0⟩ :: advanced }

variable {successors : Node → List Node} {entry : Node} {t : Traversal Node}

/-- What one step can do: nothing, retire the top frame, or follow a successor to an old or a new
node. -/
theorem step_cases (successors : Node → List Node) (t : Traversal Node) :
    (t.stack = [] ∧ t.step successors = t) ∨
    (∃ frame below, t.stack = frame :: below ∧
      (successors frame.block)[frame.nextSuccessor]? = none ∧
      t.step successors = ⟨t.preorder, t.postorder ++ [frame.block], below⟩) ∨
    (∃ frame below target, t.stack = frame :: below ∧
      (successors frame.block)[frame.nextSuccessor]? = some target ∧
      ((target ∈ t.preorder ∧ t.step successors
          = ⟨t.preorder, t.postorder, ⟨frame.block, frame.nextSuccessor + 1⟩ :: below⟩) ∨
        (target ∉ t.preorder ∧ t.step successors = ⟨t.preorder ++ [target], t.postorder,
          ⟨target, 0⟩ :: ⟨frame.block, frame.nextSuccessor + 1⟩ :: below⟩))) := by
  unfold step
  cases hs : t.stack with
  | nil => exact Or.inl ⟨rfl, rfl⟩
  | cons frame below =>
      right
      cases hn : (successors frame.block)[frame.nextSuccessor]? with
      | none => exact Or.inl ⟨frame, below, rfl, hn, by simp [hn]⟩
      | some target =>
          right
          refine ⟨frame, below, target, rfl, hn, ?_⟩
          by_cases hm : target ∈ t.preorder
          · exact Or.inl ⟨hm, by simp [hn, hm]⟩
          · exact Or.inr ⟨hm, by simp [hn, hm]⟩

/-! ## The invariant -/

/-- The invariant of a search from `entry`: what is discovered is reachable and is finished or on the
stack, a frame has discovered the successors before its position, a finished node all of them. -/
structure Sound (successors : Node → List Node) (entry : Node) (t : Traversal Node) : Prop where
  entry_mem : entry ∈ t.preorder
  nodup : t.preorder.Nodup
  reachable : ∀ node ∈ t.preorder, Reachable successors entry node
  perm : t.preorder.Perm (t.postorder ++ t.stack.map TraversalFrame.block)
  advanced : ∀ frame ∈ t.stack, ∀ i < frame.nextSuccessor, ∀ target,
    (successors frame.block)[i]? = some target → target ∈ t.preorder
  finished : ∀ node ∈ t.postorder, ∀ target ∈ successors node, target ∈ t.preorder

omit [DecidableEq Node] in
theorem sound_start (successors : Node → List Node) (entry : Node) :
    (start entry).Sound successors entry where
  entry_mem := by simp [start]
  nodup := by simp [start]
  reachable := by
    intro node hnode
    rw [start, List.mem_singleton] at hnode
    rw [hnode]
    exact Relation.ReflTransGen.refl
  perm := by simp [start]
  advanced := by
    intro frame hframe i hi
    rw [start, List.mem_singleton] at hframe
    rw [hframe] at hi
    exact absurd hi (Nat.not_lt_zero i)
  finished := by
    intro node hnode
    exact absurd hnode (by simp [start])

variable {frame : TraversalFrame Node} {target : Node} {below : List (TraversalFrame Node)} {nodes : List Node}

omit [DecidableEq Node] in
/-- A frame that moves over a discovered successor keeps its promise. -/
theorem Sound.advance (h : t.Sound successors entry) (hframe : frame ∈ t.stack) {preorder : List Node}
    (hnext : (successors frame.block)[frame.nextSuccessor]? = some target)
    (hsub : ∀ node ∈ t.preorder, node ∈ preorder) (htarget : target ∈ preorder) :
    ∀ i < frame.nextSuccessor + 1, ∀ other, (successors frame.block)[i]? = some other →
      other ∈ preorder := by
  intro i hi other hother
  rcases Nat.lt_succ_iff_lt_or_eq.mp hi with hlt | heq
  · exact hsub other (h.advanced frame hframe i hlt other hother)
  · rw [heq, hnext] at hother
    rw [← Option.some.inj hother]
    exact htarget

omit [DecidableEq Node] in
/-- A frame with no next successor has discovered all of them. -/
theorem mem_of_passed {nodes preorder : List Node} {count : Nat}
    (hpassed : ∀ i < count, ∀ target, nodes[i]? = some target → target ∈ preorder) (hnext : nodes[count]? = none) :
    ∀ target ∈ nodes, target ∈ preorder := by
  intro target htarget
  obtain ⟨i, hi, hget⟩ := List.getElem_of_mem htarget
  have hlen := List.getElem?_eq_none_iff.mp hnext
  exact hpassed i (by omega) target (by rw [List.getElem?_eq_getElem hi, hget])

omit [DecidableEq Node] in
theorem Sound.retire (h : t.Sound successors entry) (hstack : t.stack = frame :: below)
    (hnext : (successors frame.block)[frame.nextSuccessor]? = none) :
    Sound successors entry ⟨t.preorder, t.postorder ++ [frame.block], below⟩ where
  entry_mem := h.entry_mem
  nodup := h.nodup
  reachable := h.reachable
  perm := by
    have hperm := h.perm
    rw [hstack, List.map_cons] at hperm
    simpa using hperm
  advanced := by
    intro other hother
    exact h.advanced other (by rw [hstack]; exact List.mem_cons_of_mem _ hother)
  finished := by
    intro node hnode target htarget
    rcases List.mem_append.mp hnode with hnode | hnode
    · exact h.finished node hnode target htarget
    · rw [List.mem_singleton.mp hnode] at htarget
      exact mem_of_passed (h.advanced frame (by rw [hstack]; exact List.mem_cons_self)) hnext target htarget

omit [DecidableEq Node] in
theorem Sound.revisit (h : t.Sound successors entry) (hstack : t.stack = frame :: below)
    (hnext : (successors frame.block)[frame.nextSuccessor]? = some target) (hmem : target ∈ t.preorder) :
    Sound successors entry
      ⟨t.preorder, t.postorder, ⟨frame.block, frame.nextSuccessor + 1⟩ :: below⟩ where
  entry_mem := h.entry_mem
  nodup := h.nodup
  reachable := h.reachable
  perm := by
    have hperm := h.perm
    rw [hstack] at hperm
    simpa using hperm
  advanced := by
    intro other hother
    rcases List.mem_cons.mp hother with rfl | hother
    · exact h.advance (by rw [hstack]; exact List.mem_cons_self) hnext (fun _ hn => hn) hmem
    · exact h.advanced other (by rw [hstack]; exact List.mem_cons_of_mem _ hother)
  finished := h.finished

omit [DecidableEq Node] in
theorem Sound.discover (h : t.Sound successors entry) (hstack : t.stack = frame :: below)
    (hnext : (successors frame.block)[frame.nextSuccessor]? = some target) (hmem : target ∉ t.preorder) :
    Sound successors entry ⟨t.preorder ++ [target], t.postorder,
      ⟨target, 0⟩ :: ⟨frame.block, frame.nextSuccessor + 1⟩ :: below⟩ where
  entry_mem := List.mem_append_left _ h.entry_mem
  nodup := by
    rw [List.nodup_append]
    refine ⟨h.nodup, List.nodup_singleton _, ?_⟩
    intro node hnode other hother heq
    rw [List.mem_singleton.mp hother] at heq
    exact hmem (heq ▸ hnode)
  reachable := by
    intro node hnode
    rcases List.mem_append.mp hnode with hnode | hnode
    · exact h.reachable node hnode
    · have hblock : frame.block ∈ t.preorder := by
        rw [h.perm.mem_iff, hstack]
        simp
      rw [List.mem_singleton.mp hnode]
      exact (h.reachable _ hblock).tail (List.mem_of_getElem? hnext)
  perm := by
    have hperm := h.perm.append_right [target]
    rw [hstack] at hperm
    refine hperm.trans ?_
    rw [List.append_assoc]
    refine List.Perm.append_left _ ?_
    exact List.perm_append_comm
  advanced := by
    have hold : ∀ node ∈ t.preorder, node ∈ t.preorder ++ [target] :=
      fun _ hn => List.mem_append_left _ hn
    intro other hother
    rcases List.mem_cons.mp hother with rfl | hother
    · intro i hi
      exact absurd hi (Nat.not_lt_zero i)
    rcases List.mem_cons.mp hother with rfl | hother
    · exact h.advance (by rw [hstack]; exact List.mem_cons_self) hnext hold (by simp)
    · intro i hi node hnode
      exact hold node
        (h.advanced other (by rw [hstack]; exact List.mem_cons_of_mem _ hother) i hi node hnode)
  finished := by
    intro node hnode other hother
    exact List.mem_append_left _ (h.finished node hnode other hother)

theorem Sound.step (h : t.Sound successors entry) : (t.step successors).Sound successors entry := by
  rcases step_cases successors t with ⟨_, hstep⟩ | ⟨frame, below, hstack, hnext, hstep⟩ |
    ⟨frame, below, target, hstack, hnext, ⟨hmem, hstep⟩ | ⟨hmem, hstep⟩⟩
  all_goals rw [hstep]
  · exact h
  · exact h.retire hstack hnext
  · exact h.revisit hstack hnext hmem
  · exact h.discover hstack hnext hmem

omit [DecidableEq Node] in
/-- **The discovered nodes of an ended search are the reachable ones.** -/
theorem Sound.mem_preorder_iff (h : t.Sound successors entry) (hended : t.stack = []) {node : Node} :
    node ∈ t.preorder ↔ Reachable successors entry node := by
  constructor
  · exact h.reachable node
  · intro hreach
    induction hreach with
    | refl => exact h.entry_mem
    | tail _ hedge ih =>
        rw [h.perm.mem_iff, hended, List.map_nil, List.append_nil] at ih
        exact h.finished _ ih _ hedge

omit [DecidableEq Node] in
theorem Sound.postorder_perm (h : t.Sound successors entry) (hended : t.stack = []) :
    t.postorder.Perm t.preorder := by
  have hperm := h.perm
  rw [hended, List.map_nil, List.append_nil] at hperm
  exact hperm.symm

/-! ## The search ends -/

/-- The cost of exploring a node: one step for each successor and one to retire it. -/
def cost (successors : Node → List Node) (node : Node) : Nat := (successors node).length + 1

/-- The steps a frame still takes. -/
def frameCost (successors : Node → List Node) (frame : TraversalFrame Node) : Nat :=
  (successors frame.block).length - frame.nextSuccessor + 1

/-- The listed nodes that a search has not discovered. -/
def undiscovered (nodes preorder : List Node) : List Node := nodes.filter (· ∉ preorder)

/-- The steps a search still takes, when it can only discover the listed nodes. -/
def remaining (successors : Node → List Node) (nodes : List Node) (t : Traversal Node) : Nat :=
  ((undiscovered nodes t.preorder).map (cost successors)).sum
    + (t.stack.map (frameCost successors)).sum

/-- Discovering a node pays for its frame. -/
theorem sum_undiscovered {preorder : List Node} (hnodes : nodes.Nodup)
    (hmem : target ∈ nodes) (hnew : target ∉ preorder) (f : Node → Nat) :
    ((undiscovered nodes (preorder ++ [target])).map f).sum + f target
      = ((undiscovered nodes preorder).map f).sum := by
  have hsplit : (undiscovered nodes preorder).erase target
      = undiscovered nodes (preorder ++ [target]) := by
    unfold undiscovered
    rw [(hnodes.filter _).erase_eq_filter, List.filter_filter]
    refine List.filter_congr ?_
    intro node _
    by_cases hn : node ∈ preorder <;> by_cases ht : node = target <;> simp [hn, ht]
  have hin : target ∈ undiscovered nodes preorder := by
    rw [undiscovered, List.mem_filter]
    exact ⟨hmem, by simpa using hnew⟩
  rw [← hsplit, ((List.perm_cons_erase hin).map f).sum_eq, List.map_cons, List.sum_cons, Nat.add_comm]

/-- Every step of a search that has not ended lowers what remains. -/
theorem remaining_step (hnodes : nodes.Nodup) (hclosed : ∀ node ∈ nodes, ∀ target ∈ successors node, target ∈ nodes)
    (hstack : ∀ frame ∈ t.stack, frame.block ∈ nodes) (hopen : t.stack ≠ []) :
    (t.step successors).remaining successors nodes < t.remaining successors nodes ∧
      ∀ frame ∈ (t.step successors).stack, frame.block ∈ nodes := by
  rcases step_cases successors t with ⟨hs, _⟩ | ⟨frame, below, hs, hnext, hstep⟩ |
    ⟨frame, below, target, hs, hnext, ⟨hmem, hstep⟩ | ⟨hmem, hstep⟩⟩
  · exact absurd hs hopen
  all_goals
    rw [hs] at hstack
    have hframe : frame.block ∈ nodes := hstack frame List.mem_cons_self
    have hbelow : ∀ other ∈ below, other.block ∈ nodes :=
      fun other ho => hstack other (List.mem_cons_of_mem _ ho)
    rw [hstep]
    unfold remaining
    rw [hs]
    simp only [List.map_cons, List.sum_cons]
  · refine ⟨?_, hbelow⟩
    unfold frameCost
    omega
  · have hlt : frame.nextSuccessor < (successors frame.block).length :=
      (List.getElem?_eq_some_iff.mp hnext).1
    constructor
    · simp only [frameCost]
      omega
    · intro other ho
      rcases List.mem_cons.mp ho with rfl | ho
      · exact hframe
      · exact hbelow other ho
  · have hlt : frame.nextSuccessor < (successors frame.block).length :=
      (List.getElem?_eq_some_iff.mp hnext).1
    have htarget : target ∈ nodes := hclosed _ hframe _ (List.mem_of_getElem? hnext)
    have hsum := sum_undiscovered hnodes htarget hmem (cost successors)
    constructor
    · rw [← hsum]
      simp only [frameCost, cost]
      omega
    · intro other ho
      rcases List.mem_cons.mp ho with rfl | ho
      · exact htarget
      rcases List.mem_cons.mp ho with rfl | ho
      · exact hframe
      · exact hbelow other ho

end Traversal

/-! ## Whole searches -/

/-- The search from a node after a number of steps. -/
def traverse (successors : Node → List Node) (steps : Nat) (entry : Node) : Traversal Node :=
  (Traversal.step successors)^[steps] (.start entry)

variable {successors : Node → List Node} {entry : Node}

theorem traverse_sound (successors : Node → List Node) (steps : Nat) (entry : Node) :
    (traverse successors steps entry).Sound successors entry := by
  unfold traverse
  induction steps with
  | zero => exact Traversal.sound_start successors entry
  | succ n ih =>
      rw [Function.iterate_succ_apply']
      exact ih.step

/-- From any state whose frames lie in a closed list, enough steps end the search. -/
theorem iterate_ended {nodes : List Node} (hnodes : nodes.Nodup)
    (hclosed : ∀ node ∈ nodes, ∀ target ∈ successors node, target ∈ nodes) (steps : Nat) :
    ∀ t : Traversal Node, (∀ frame ∈ t.stack, frame.block ∈ nodes) →
      t.remaining successors nodes ≤ steps → ((Traversal.step successors)^[steps] t).stack = [] := by
  induction steps with
  | zero =>
      intro t _ hle
      rw [Function.iterate_zero, id]
      by_contra hopen
      cases hs : t.stack with
      | nil => exact hopen hs
      | cons frame below =>
          -- an open frame costs at least one step
          simp only [Traversal.remaining, hs, List.map_cons, List.sum_cons, Traversal.frameCost] at hle
          omega
  | succ n ih =>
      intro t hstack hle
      rw [Function.iterate_succ_apply]
      by_cases hopen : t.stack = []
      · have hstay : t.step successors = t := by
          unfold Traversal.step
          rw [hopen]
        rw [hstay]
        have hzero : (Traversal.step successors)^[n] t = t :=
          Function.iterate_fixed hstay n
        rw [hzero]
        exact hopen
      · obtain ⟨hlt, hnext⟩ := Traversal.remaining_step hnodes hclosed hstack hopen
        exact ih _ hnext (by omega)

/-- **One step for every node and every edge of a closed list ends the search.** -/
theorem traverse_ended {nodes : List Node} (hnodes : nodes.Nodup)
    (hclosed : ∀ node ∈ nodes, ∀ target ∈ successors node, target ∈ nodes) (hentry : entry ∈ nodes)
    {steps : Nat} (hsteps : (nodes.map (Traversal.cost successors)).sum ≤ steps) :
    (traverse successors steps entry).stack = [] := by
  refine iterate_ended hnodes hclosed steps _ ?_ ?_
  · intro frame hframe
    rw [Traversal.start, List.mem_singleton] at hframe
    rw [hframe]
    exact hentry
  · have hsum := Traversal.sum_undiscovered hnodes hentry List.not_mem_nil
      (Traversal.cost successors)
    have hall : Traversal.undiscovered nodes [] = nodes := by simp [Traversal.undiscovered]
    rw [hall, List.nil_append] at hsum
    have hcost : Traversal.frameCost successors ⟨entry, 0⟩ = Traversal.cost successors entry := by
      simp [Traversal.frameCost, Traversal.cost]
    simp only [Traversal.remaining, Traversal.start, List.map_cons, List.map_nil, List.sum_cons,
      List.sum_nil, hcost]
    omega

end Tala.Library.DepthFirst
