import Mathlib.Data.Finset.Card
import Mathlib.Data.List.Basic
import Mathlib.Logic.Function.Iterate
import Mathlib.Logic.Relation

/-!
# `Library.Search` — what a worklist finds

A search keeps the nodes it has seen and a stack of those it has yet to leave. A step leaves the top of
the stack and stacks the neighbours it had not seen. When the stack is empty the seen nodes are those that
the start leads to (`Worklist.Sound.mem_seen_iff`), and within a finite set of nodes two steps for each node
empty it (`iterate_ends`).
-/

namespace Tala.Library.Search

variable {Node : Type} [DecidableEq Node]

structure Worklist (Node : Type) where
  seen : Finset Node
  stack : List Node

namespace Worklist

/-- Stack a node, unless it has been seen. -/
def visit (s : Worklist Node) (node : Node) : Worklist Node :=
  if node ∈ s.seen then s else ⟨insert node s.seen, node :: s.stack⟩

/-- Leave the top of the stack. -/
def step (next : Node → List Node) (s : Worklist Node) : Worklist Node :=
  match s.stack with
  | [] => s
  | current :: rest => (next current).foldl visit ⟨s.seen, rest⟩

/-- The nodes seen after so many steps from a start, whose last node is left first. -/
def run (next : Node → List Node) (start : List Node) (steps : Nat) : Worklist Node :=
  (step next)^[steps] ⟨start.toFinset, start.reverse⟩

end Worklist

open Worklist

variable {next : Node → List Node} {start : List Node} {s : Worklist Node} {node : Node}

/-- A node that the start leads to. -/
def LedTo (next : Node → List Node) (start : List Node) (node : Node) : Prop :=
  ∃ first ∈ start, Relation.ReflTransGen (fun a b => b ∈ next a) first node

/-- The invariant: seen nodes are led to, and the neighbours of those that were left have been seen. -/
structure Worklist.Sound (next : Node → List Node) (start : List Node) (s : Worklist Node) : Prop where
  start_mem : ∀ node ∈ start, node ∈ s.seen
  ledTo : ∀ node ∈ s.seen, LedTo next start node
  stacked : ∀ node ∈ s.stack, node ∈ s.seen
  left : ∀ node ∈ s.seen, node ∉ s.stack → ∀ other ∈ next node, other ∈ s.seen

/-! ## One step -/

theorem foldl_visit_seen (nodes : List Node) (s : Worklist Node) :
    (nodes.foldl visit s).seen = s.seen ∪ nodes.toFinset := by
  induction nodes generalizing s with
  | nil => simp
  | cons first rest ih =>
      rw [List.foldl_cons, ih]
      unfold visit
      by_cases h : first ∈ s.seen
      · rw [if_pos h, List.toFinset_cons, Finset.union_insert, Finset.insert_eq_self.mpr]
        exact Finset.mem_union_left _ h
      · rw [if_neg h, List.toFinset_cons, Finset.union_insert, Finset.insert_union]

theorem mem_foldl_visit_stack (nodes : List Node) (s : Worklist Node) :
    node ∈ (nodes.foldl visit s).stack ↔ node ∈ s.stack ∨ (node ∈ nodes ∧ node ∉ s.seen) := by
  induction nodes generalizing s with
  | nil => simp
  | cons first rest ih =>
      rw [List.foldl_cons, ih]
      unfold visit
      by_cases h : first ∈ s.seen
      · rw [if_pos h]
        constructor
        · exact Or.imp_right fun hrest => ⟨List.mem_cons_of_mem _ hrest.1, hrest.2⟩
        · rintro (hstack | ⟨hmem, hnew⟩)
          · exact Or.inl hstack
          · rcases List.mem_cons.mp hmem with rfl | hmem
            · exact absurd h hnew
            · exact Or.inr ⟨hmem, hnew⟩
      · rw [if_neg h]
        simp only [List.mem_cons, Finset.mem_insert, not_or]
        by_cases heq : node = first
        · subst heq
          simp [h]
        · simp [heq]

theorem Worklist.Sound.step (h : s.Sound next start) : (s.step next).Sound next start := by
  unfold Worklist.step
  cases hstack : s.stack with
  | nil => exact h
  | cons current rest =>
      have hcurrent : current ∈ s.seen := h.stacked current (by rw [hstack]; exact List.mem_cons_self)
      refine ⟨?_, ?_, ?_, ?_⟩ <;> intro node hnode
      · rw [foldl_visit_seen]
        exact Finset.mem_union_left _ (h.start_mem node hnode)
      · rw [foldl_visit_seen] at hnode
        rcases Finset.mem_union.mp hnode with hnode | hnode
        · exact h.ledTo node hnode
        · obtain ⟨first, hfirst, hled⟩ := h.ledTo current hcurrent
          exact ⟨first, hfirst, hled.tail (List.mem_toFinset.mp hnode)⟩
      · rw [foldl_visit_seen]
        rcases (mem_foldl_visit_stack _ _).mp hnode with hnode | ⟨hnode, _⟩
        · exact Finset.mem_union_left _ (h.stacked node (by rw [hstack]; exact List.mem_cons_of_mem _ hnode))
        · exact Finset.mem_union_right _ (List.mem_toFinset.mpr hnode)
      · intro hnot other hother
        rw [mem_foldl_visit_stack, not_or, not_and_not_right] at hnot
        rw [foldl_visit_seen]
        by_cases heq : node = current
        · subst heq
          exact Finset.mem_union_right _ (List.mem_toFinset.mpr hother)
        · rw [foldl_visit_seen] at hnode
          have hseen : node ∈ s.seen := by
            rcases Finset.mem_union.mp hnode with hnode | hnode
            · exact hnode
            · exact hnot.2 (List.mem_toFinset.mp hnode)
          refine Finset.mem_union_left _ (h.left node hseen ?_ other hother)
          rw [hstack]
          exact fun hmem => (List.mem_cons.mp hmem).elim heq hnot.1

theorem Worklist.Sound.iterate (h : s.Sound next start) (steps : Nat) :
    ((Worklist.step next)^[steps] s).Sound next start := by
  induction steps with
  | zero => exact h
  | succ steps ih =>
      rw [Function.iterate_succ_apply']
      exact ih.step

theorem sound_start (next : Node → List Node) (start : List Node) :
    Worklist.Sound next start ⟨start.toFinset, start.reverse⟩ where
  start_mem := fun _ hnode => List.mem_toFinset.mpr hnode
  ledTo := fun node hnode => ⟨node, List.mem_toFinset.mp hnode, Relation.ReflTransGen.refl⟩
  stacked := fun _ hnode => List.mem_toFinset.mpr (List.mem_reverse.mp hnode)
  left := fun _ hnode hnot => absurd (List.mem_reverse.mpr (List.mem_toFinset.mp hnode)) hnot

omit [DecidableEq Node] in
/-- **With an empty stack everything the start leads to has been seen.** -/
theorem Worklist.Sound.mem_seen_iff (h : s.Sound next start) (hempty : s.stack = []) :
    node ∈ s.seen ↔ LedTo next start node := by
  refine ⟨h.ledTo node, ?_⟩
  rintro ⟨first, hfirst, hled⟩
  induction hled with
  | refl => exact h.start_mem first hfirst
  | tail _ hedge ih => exact h.left _ ih (by rw [hempty]; exact List.not_mem_nil) _ hedge

/-! ## Termination -/

/-- What a search within some nodes has yet to do: two steps for a node not seen, one for a stacked one. -/
def remaining (nodes : Finset Node) (s : Worklist Node) : Nat := 2 * (nodes \ s.seen).card + s.stack.length

variable {nodes : Finset Node}

theorem remaining_visit (hnode : node ∈ nodes) : remaining nodes (s.visit node) ≤ remaining nodes s := by
  unfold Worklist.visit
  by_cases h : node ∈ s.seen
  · rw [if_pos h]
  · rw [if_neg h]
    have hfewer : (nodes \ insert node s.seen).card < (nodes \ s.seen).card := by
      refine Finset.card_lt_card (Finset.ssubset_iff_subset_ne.mpr ⟨?_, fun heq => ?_⟩)
      · exact Finset.sdiff_subset_sdiff (Finset.Subset.refl _) (Finset.subset_insert _ _)
      · have hmem : node ∈ nodes \ s.seen := Finset.mem_sdiff.mpr ⟨hnode, h⟩
        rw [← heq, Finset.mem_sdiff] at hmem
        exact hmem.2 (Finset.mem_insert_self _ _)
    show 2 * (nodes \ insert node s.seen).card + (node :: s.stack).length
      ≤ 2 * (nodes \ s.seen).card + s.stack.length
    rw [List.length_cons]
    omega

theorem remaining_foldl_visit {others : List Node} (hothers : ∀ node ∈ others, node ∈ nodes) (s : Worklist Node) :
    remaining nodes (others.foldl visit s) ≤ remaining nodes s := by
  induction others generalizing s with
  | nil => exact le_refl _
  | cons first rest ih =>
      rw [List.foldl_cons]
      refine (ih (fun node hnode => hothers node (List.mem_cons_of_mem _ hnode)) _).trans ?_
      exact remaining_visit (hothers first List.mem_cons_self)

theorem remaining_step
    (hclosed : ∀ node ∈ nodes, ∀ other ∈ next node, other ∈ nodes) {current : Node} {rest : List Node}
    (hstack : s.stack = current :: rest) (hcurrent : current ∈ nodes) :
    remaining nodes (s.step next) + 1 ≤ remaining nodes s := by
  have hstep : s.step next = (next current).foldl visit ⟨s.seen, rest⟩ := by
    unfold Worklist.step
    rw [hstack]
  have hfold := remaining_foldl_visit (hclosed current hcurrent) ⟨s.seen, rest⟩
  have hrest : remaining nodes s = 2 * (nodes \ s.seen).card + (rest.length + 1) := by
    unfold remaining
    rw [hstack, List.length_cons]
  rw [hstep, hrest]
  exact Nat.add_le_add_right hfold 1

/-- **A search within finitely many nodes ends**, after as many steps as it had yet to do. -/
theorem iterate_ends {nodes : Finset Node} (hclosed : ∀ node ∈ nodes, ∀ other ∈ next node, other ∈ nodes)
    (h : s.Sound next start) (hseen : ∀ node ∈ s.seen, node ∈ nodes) {steps : Nat}
    (hsteps : remaining nodes s ≤ steps) : ((Worklist.step next)^[steps] s).stack = [] := by
  induction steps generalizing s with
  | zero =>
      have hempty : s.stack.length = 0 := by
        unfold remaining at hsteps
        omega
      exact List.length_eq_zero_iff.mp hempty
  | succ steps ih =>
      rw [Function.iterate_succ_apply]
      cases hstack : s.stack with
      | nil =>
          have hstill : s.step next = s := by
            unfold Worklist.step
            rw [hstack]
          rw [hstill, Function.iterate_fixed hstill]
          exact hstack
      | cons current rest =>
          have hcurrent := hseen current (h.stacked current (by rw [hstack]; exact List.mem_cons_self))
          have hless := remaining_step hclosed hstack hcurrent
          refine ih h.step ?_ (by omega)
          intro node hnode
          unfold Worklist.step at hnode
          rw [hstack] at hnode
          rw [foldl_visit_seen] at hnode
          rcases Finset.mem_union.mp hnode with hnode | hnode
          · exact hseen node hnode
          · exact hclosed current hcurrent node (List.mem_toFinset.mp hnode)

/-- **The search**: with two steps for each node it has seen what the start leads to. -/
theorem mem_run_iff (hclosed : ∀ node ∈ nodes, ∀ other ∈ next node, other ∈ nodes)
    (hstart : ∀ node ∈ start, node ∈ nodes) (hnodup : start.Nodup) {steps : Nat}
    (hsteps : 2 * nodes.card ≤ steps) :
    node ∈ (Worklist.run next start steps).seen ↔ LedTo next start node := by
  have hsound := sound_start next start
  have hseen : ∀ node ∈ start.toFinset, node ∈ nodes := fun node hnode =>
    hstart node (List.mem_toFinset.mp hnode)
  have hremaining : remaining nodes (⟨start.toFinset, start.reverse⟩ : Worklist Node) ≤ steps := by
    have hcard : (nodes \ start.toFinset).card = nodes.card - start.toFinset.card :=
      Finset.card_sdiff_of_subset hseen
    have hlength : start.toFinset.card = start.length := List.toFinset_card_of_nodup hnodup
    show 2 * (nodes \ start.toFinset).card + start.reverse.length ≤ steps
    have hle := Finset.card_le_card (show start.toFinset ⊆ nodes from hseen)
    rw [hcard, List.length_reverse]
    omega
  exact (hsound.iterate steps).mem_seen_iff (iterate_ends hclosed hsound hseen hremaining)

end Tala.Library.Search
