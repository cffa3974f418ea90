import Mathlib.Data.List.Basic
import Mathlib.Data.List.Nodup

/-!
# `Library.Postorder` — children before their parents

A depth-first search that emits a node after its children. The nodes under way are kept apart from those
that are complete: a child that is under way closes a cycle, and the search returns it. `Emitted` is the
invariant of what has been emitted. If every child has a smaller rank than its parent there is no cycle,
and the search emits the nodes that it can reach, each once and after its children (`visitMany_emitted`).
-/

namespace Tala.Library.Postorder

variable {Node : Type} [DecidableEq Node]

/-- The children of the nodes that there are. -/
structure Graph (Node : Type) where
  nodes : List Node
  children : Node → Option (List Node)
  known : ∀ node, (children node).isSome = true → node ∈ nodes

def takeThrough (target : Node) : List Node → List Node
  | [] => []
  | node :: remaining => if node = target then [node] else node :: takeThrough target remaining

def cycleFrom (repeated : Node) (active : List Node) : List Node :=
  repeated :: (takeThrough repeated active).reverse

/-- The nodes that are not yet under way. -/
def waiting (graph : Graph Node) (active : List Node) : Nat :=
  (graph.nodes.filter fun node => node ∉ active).length

theorem waiting_lt {graph : Graph Node} {active : List Node} {node : Node} (hnode : node ∈ graph.nodes)
    (hactive : node ∉ active) : waiting graph (node :: active) < waiting graph active := by
  have hsame : (graph.nodes.filter fun other => other ∉ node :: active)
      = (graph.nodes.filter fun other => other ∉ active).filter fun other => other ≠ node := by
    rw [List.filter_filter]
    apply List.filter_congr
    intro other _
    simp [not_or]
  unfold waiting
  rw [hsame]
  apply List.length_filter_lt_length_iff_exists.mpr
  exact ⟨node, List.mem_filter.mpr ⟨hnode, by simpa using hactive⟩, by simp⟩

mutual

/-- The nodes of a list, one after the other. -/
def visitMany (graph : Graph Node) (complete active output : List Node) (pending : List Node) :
    Except (List Node) (List Node × List Node) :=
  match pending with
  | [] => .ok (complete, output)
  | node :: remaining =>
      match visitOne graph complete active output node with
      | .error cycle => .error cycle
      | .ok (complete, output) => visitMany graph complete active output remaining
termination_by (waiting graph active, pending.length + 1)

/-- One node, after its children. A node that is not there is left out. -/
def visitOne (graph : Graph Node) (complete active output : List Node) (node : Node) :
    Except (List Node) (List Node × List Node) :=
  if node ∈ complete then .ok (complete, output)
  else if _hactive : node ∈ active then .error (cycleFrom node active)
  else
    match _hchildren : graph.children node with
    | none => .ok (complete, output)
    | some children =>
        match visitMany graph complete (node :: active) output children with
        | .error cycle => .error cycle
        | .ok (complete, output) => .ok (node :: complete, node :: output)
termination_by (waiting graph active, 0)
decreasing_by
  have hnode : node ∈ graph.nodes := graph.known node (by rw [_hchildren]; rfl)
  exact Prod.Lex.left _ _ (waiting_lt hnode _hactive)

end

/-- What has been emitted, the last node first. -/
structure Emitted (graph : Graph Node) (complete output : List Node) : Prop where
  same : ∀ node, node ∈ complete ↔ node ∈ output
  nodup : output.Nodup
  known : ∀ node ∈ output, (graph.children node).isSome = true
  ordered : ∀ later node earlier, output = later ++ node :: earlier →
    ∀ children, graph.children node = some children →
      ∀ child ∈ children, (graph.children child).isSome = true → child ∈ earlier

omit [DecidableEq Node] in
theorem emitted_nil (graph : Graph Node) : Emitted graph [] [] := by
  constructor
  · intro node
    rfl
  · exact List.nodup_nil
  · intro node hnode
    cases hnode
  · intro later node earlier h
    exact absurd h.symm (by simp)

omit [DecidableEq Node] in
/-- A node may be emitted when its children have been. -/
theorem Emitted.cons {graph : Graph Node} {complete output children : List Node} {node : Node}
    (h : Emitted graph complete output) (hnew : node ∉ output) (hchildren : graph.children node = some children)
    (hbefore : ∀ child ∈ children, (graph.children child).isSome = true → child ∈ output) :
    Emitted graph (node :: complete) (node :: output) := by
  constructor
  · intro other
    rw [List.mem_cons, List.mem_cons, h.same other]
  · exact List.nodup_cons.mpr ⟨hnew, h.nodup⟩
  · intro other hother
    rcases List.mem_cons.mp hother with rfl | hmem
    · rw [hchildren]
      rfl
    · exact h.known other hmem
  · intro later other earlier heq
    cases later with
    | nil =>
        obtain ⟨rfl, rfl⟩ := List.cons.inj heq
        intro children' hchildren'
        rw [hchildren] at hchildren'
        obtain rfl := Option.some.inj hchildren'
        exact hbefore
    | cons first later => exact h.ordered later other earlier (List.cons.inj heq).2

section Ranked

variable {graph : Graph Node} {rank : Node → Nat}

/-- What a visit does when every child has a smaller rank. -/
structure Visited (graph : Graph Node) (rank : Node → Nat) (pending output complete' output' : List Node) :
    Prop where
  emitted : Emitted graph complete' output'
  suffix : output <:+ output'
  found : ∀ node ∈ pending, (graph.children node).isSome = true → node ∈ output'
  below : ∀ node ∈ output', node ∈ output ∨ ∃ root ∈ pending, rank node ≤ rank root

theorem visitMany_of_visitOne (active : List Node) (pending : List Node)
    (hone : ∀ node ∈ pending, ∀ complete output, Emitted graph complete output →
      ∃ complete' output', visitOne graph complete active output node = .ok (complete', output') ∧
        Visited graph rank [node] output complete' output') :
    ∀ complete output, Emitted graph complete output →
      ∃ complete' output', visitMany graph complete active output pending = .ok (complete', output') ∧
        Visited graph rank pending output complete' output' := by
  induction pending with
  | nil =>
      intro complete output h
      refine ⟨complete, output, by rw [visitMany], h, List.suffix_rfl, ?_, ?_⟩
      · intro node hnode
        cases hnode
      · intro node hnode
        exact Or.inl hnode
  | cons node remaining ih =>
      intro complete output h
      obtain ⟨complete', output', hvisit, hfirst⟩ := hone node List.mem_cons_self complete output h
      obtain ⟨complete'', output'', hrest, hlast⟩ :=
        ih (fun other hother => hone other (List.mem_cons_of_mem node hother)) complete' output' hfirst.emitted
      refine ⟨complete'', output'', ?_, hlast.emitted, hfirst.suffix.trans hlast.suffix, ?_, ?_⟩
      · rw [visitMany, hvisit]
        exact hrest
      · intro other hother hknown
        rcases List.mem_cons.mp hother with rfl | hmem
        · exact hlast.suffix.subset (hfirst.found other (List.mem_singleton.mpr rfl) hknown)
        · exact hlast.found other hmem hknown
      · intro other hother
        rcases hlast.below other hother with hold | ⟨root, hroot, hle⟩
        · rcases hfirst.below other hold with hold | ⟨root, hroot, hle⟩
          · exact Or.inl hold
          · rw [List.mem_singleton.mp hroot] at hle
            exact Or.inr ⟨node, List.mem_cons_self, hle⟩
        · exact Or.inr ⟨root, List.mem_cons_of_mem node hroot, hle⟩

/-- One visit. The nodes under way all have a greater rank, so none of them is met again. -/
theorem visitOne_visited
    (hrank : ∀ node children, graph.children node = some children → ∀ child ∈ children, rank child < rank node)
    (bound : Nat) : ∀ node, rank node < bound → ∀ active, (∀ other ∈ active, rank node < rank other) →
      ∀ complete output, Emitted graph complete output →
        ∃ complete' output', visitOne graph complete active output node = .ok (complete', output') ∧
          Visited graph rank [node] output complete' output' := by
  induction bound with
  | zero =>
      intro node hlt
      exact absurd hlt (Nat.not_lt_zero _)
  | succ bound ih =>
      intro node hlt active hactive complete output h
      rw [visitOne]
      split
      · next hcomplete =>
        refine ⟨complete, output, rfl, h, List.suffix_rfl, ?_, fun other hother => Or.inl hother⟩
        intro other hother _
        rw [List.mem_singleton.mp hother]
        exact (h.same node).mp hcomplete
      next hcomplete =>
      split
      · next hmem => exact absurd (hactive node hmem) (Nat.lt_irrefl _)
      split
      · next hchildren =>
        refine ⟨complete, output, rfl, h, List.suffix_rfl, ?_, fun other hother => Or.inl hother⟩
        intro other hother hknown
        rw [List.mem_singleton.mp hother, hchildren] at hknown
        cases hknown
      · next children hchildren =>
        have hbelow := hrank node children hchildren
        obtain ⟨complete', output', hvisit, hdone⟩ := visitMany_of_visitOne (node :: active) children
          (fun child hchild => ih child (by have := hbelow child hchild; omega) (node :: active) (by
            intro other hother
            rcases List.mem_cons.mp hother with rfl | hmem
            · exact hbelow child hchild
            · exact Nat.lt_trans (hbelow child hchild) (hactive other hmem)))
          complete output h
        rw [hvisit]
        have hnew : node ∉ output' := by
          intro hmem
          rcases hdone.below node hmem with hold | ⟨child, hchild, hle⟩
          · exact hcomplete ((h.same node).mpr hold)
          · have := hbelow child hchild
            omega
        refine ⟨node :: complete', node :: output', rfl, ?_, ?_, ?_, ?_⟩
        · exact hdone.emitted.cons hnew hchildren hdone.found
        · exact hdone.suffix.trans (List.suffix_cons node output')
        · intro other hother _
          rw [List.mem_singleton.mp hother]
          exact List.mem_cons_self
        · intro other hother
          rcases List.mem_cons.mp hother with rfl | hmem
          · exact Or.inr ⟨other, List.mem_singleton.mpr rfl, Nat.le_refl _⟩
          rcases hdone.below other hmem with hold | ⟨child, hchild, hle⟩
          · exact Or.inl hold
          · have := hbelow child hchild
            exact Or.inr ⟨node, List.mem_singleton.mpr rfl, by omega⟩

/-- If every child has a smaller rank, the search finds no cycle, and emits what it can reach. -/
theorem visitMany_emitted
    (hrank : ∀ node children, graph.children node = some children → ∀ child ∈ children, rank child < rank node)
    (roots : List Node) : ∃ complete output, visitMany graph [] [] [] roots = .ok (complete, output) ∧
      Emitted graph complete output ∧ ∀ root ∈ roots, (graph.children root).isSome = true → root ∈ output := by
  obtain ⟨complete, output, hvisit, hdone⟩ := @visitMany_of_visitOne Node _ graph rank [] roots
    (fun node _ => visitOne_visited hrank (rank node + 1) node (Nat.lt_succ_self _) [] (by
      intro other hother
      cases hother))
    [] [] (emitted_nil graph)
  exact ⟨complete, output, hvisit, hdone.emitted, hdone.found⟩

end Ranked

end Tala.Library.Postorder
