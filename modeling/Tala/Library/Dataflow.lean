import Mathlib.Order.Lattice
import Mathlib.Order.WellFounded
import Mathlib.Data.DFinsupp.WellFounded
import Mathlib.Data.Finite.Prod
import Mathlib.Data.Fintype.Order
import Mathlib.Data.Prod.Lex
import Mathlib.Logic.Function.Iterate

/-!
# `Library.Dataflow` — worklist solution of monotone equations

`Equations` gives each node a fact computed from the facts of the others, and names the nodes that read
it. `Equations.step` takes one node from the list of pending ones, recomputes its fact and, if that
changed, schedules its readers, each once. `Sound` is the invariant of the steps: facts only rise, they
stay below every solution, and a node that is not pending satisfies its equation. So a run that has
ended holds the least solution above its start (`Sound.isLeastSolution`), whatever the order of the
list was (`IsLeastSolution.unique`), and over finitely many facts every run ends (`iterate_ends`).

`Equations.passes` solves the same equations without a list of pending nodes: it evaluates all nodes in
one order, in place, until a pass changes nothing. It finds the same solution
(`passes_isLeastSolution`), and ends when facts cannot rise forever (`passes_isSome`).
-/

namespace Tala.Library.Dataflow

variable {Node Fact : Type}

/-- A fact for each node, computed from all facts, and the nodes that read a node's fact. -/
structure Equations (Node Fact : Type) where
  evaluate : (Node → Fact) → Node → Fact
  dependents : Node → List Node

/-- The facts found so far and the nodes that wait to be evaluated. -/
structure Progress (Node Fact : Type) where
  facts : Node → Fact
  pending : List Node

/-- Facts that satisfy the equations of the listed nodes, the least ones above a start. -/
structure IsLeastSolution [Preorder Fact] (equations : Equations Node Fact) (nodes : List Node)
    (start facts : Node → Fact) : Prop where
  above : start ≤ facts
  solves : ∀ node ∈ nodes, facts node = equations.evaluate facts node
  least : ∀ other : Node → Fact, start ≤ other →
    (∀ node ∈ nodes, equations.evaluate other node ≤ other node) → facts ≤ other

theorem IsLeastSolution.unique [PartialOrder Fact] {equations : Equations Node Fact}
    {nodes : List Node} {start facts facts' : Node → Fact} (h : IsLeastSolution equations nodes start facts)
    (h' : IsLeastSolution equations nodes start facts') : facts = facts' := by
  apply le_antisymm
  · exact h.least facts' h'.above fun node hnode => (h'.solves node hnode).ge
  · exact h'.least facts h.above fun node hnode => (h.solves node hnode).ge

/-- The order of the nodes and the readers play no part. -/
theorem IsLeastSolution.congr [Preorder Fact] {equations equations' : Equations Node Fact}
    {nodes nodes' : List Node} {start facts : Node → Fact} (h : IsLeastSolution equations nodes start facts)
    (hevaluate : equations'.evaluate = equations.evaluate) (hnodes : ∀ node, node ∈ nodes' ↔ node ∈ nodes) :
    IsLeastSolution equations' nodes' start facts where
  above := h.above
  solves := by
    intro node hnode
    rw [hevaluate]
    exact h.solves node ((hnodes node).mp hnode)
  least := by
    intro other habove hpost
    rw [hevaluate] at hpost
    exact h.least other habove fun node hnode => hpost node ((hnodes node).mpr hnode)

variable [DecidableEq Node] [DecidableEq Fact]

/-- Add a node to the pending ones unless it is there. -/
def schedule (pending : List Node) (node : Node) : List Node :=
  if node ∈ pending then pending else pending ++ [node]

/-- Evaluate the first pending node. -/
def Equations.step (equations : Equations Node Fact) (s : Progress Node Fact) : Progress Node Fact :=
  match s.pending with
  | [] => s
  | node :: rest =>
      let next := equations.evaluate s.facts node
      if s.facts node = next then { s with pending := rest }
      else ⟨Function.update s.facts node next, (equations.dependents node).foldl schedule rest⟩

/-- The run after a number of steps from a start, with the given nodes pending. -/
def Equations.run (equations : Equations Node Fact) (start : Node → Fact) (pending : List Node)
    (steps : Nat) : Progress Node Fact :=
  equations.step^[steps] ⟨start, pending⟩

/-! ## Scheduling -/

variable {pending : List Node} {node : Node}

omit [DecidableEq Fact] in
theorem mem_foldl_schedule {nodes : List Node} :
    node ∈ nodes.foldl schedule pending ↔ node ∈ pending ∨ node ∈ nodes := by
  induction nodes generalizing pending with
  | nil => simp
  | cons first rest ih =>
      rw [List.foldl_cons, ih]
      unfold schedule
      by_cases hmem : first ∈ pending
      · rw [if_pos hmem]
        constructor
        · exact fun h => h.imp id (List.mem_cons_of_mem _)
        · rintro (h | h)
          · exact Or.inl h
          · rcases List.mem_cons.mp h with rfl | h
            · exact Or.inl hmem
            · exact Or.inr h
      · rw [if_neg hmem, List.mem_append, List.mem_singleton, List.mem_cons, or_assoc]

omit [DecidableEq Fact] in
theorem foldl_schedule_nodup {nodes : List Node} (h : pending.Nodup) :
    (nodes.foldl schedule pending).Nodup := by
  induction nodes generalizing pending with
  | nil => exact h
  | cons first rest ih =>
      refine ih ?_
      unfold schedule
      by_cases hmem : first ∈ pending
      · rw [if_pos hmem]
        exact h
      · rw [if_neg hmem]
        exact h.append (List.nodup_singleton first) (List.disjoint_singleton.mpr hmem)

section Correctness

variable [PartialOrder Fact] {equations : Equations Node Fact} {nodes : List Node}
  {start : Node → Fact} {s : Progress Node Fact}

/-- What the solver relies on: facts rise with the facts they are computed from, a node's readers are
listed, and only they depend on it. -/
structure Equations.Lawful (equations : Equations Node Fact) (nodes : List Node) : Prop where
  monotone : Monotone equations.evaluate
  closed : ∀ node ∈ nodes, ∀ reader ∈ equations.dependents node, reader ∈ nodes
  locality : ∀ facts node fact, ∀ reader ∈ nodes, reader ∉ equations.dependents node →
    equations.evaluate (Function.update facts node fact) reader = equations.evaluate facts reader

/-- The invariant of a run. -/
structure Sound (equations : Equations Node Fact) (nodes : List Node) (start : Node → Fact)
    (s : Progress Node Fact) : Prop where
  above : start ≤ s.facts
  rising : ∀ node ∈ nodes, s.facts node ≤ equations.evaluate s.facts node
  below : ∀ other : Node → Fact, start ≤ other →
    (∀ node ∈ nodes, equations.evaluate other node ≤ other node) → s.facts ≤ other
  settled : ∀ node ∈ nodes, node ∉ s.pending → s.facts node = equations.evaluate s.facts node
  listed : ∀ node ∈ s.pending, node ∈ nodes

omit [DecidableEq Node] [DecidableEq Fact] in
/-- Every node is pending at first, and no start fact is above what it evaluates to. -/
theorem sound_start {pending : List Node} (hpending : ∀ node, node ∈ pending ↔ node ∈ nodes)
    (hstart : ∀ node ∈ nodes, start node ≤ equations.evaluate start node) :
    Sound equations nodes start ⟨start, pending⟩ where
  above := le_refl start
  rising := hstart
  below := fun _ habove _ => habove
  settled := fun node hnode hnot => absurd ((hpending node).mpr hnode) hnot
  listed := fun node hnode => (hpending node).mp hnode

omit [PartialOrder Fact] in
/-- What one step can do: nothing, drop a settled node, or raise a fact and schedule its readers. -/
theorem step_cases (equations : Equations Node Fact) (s : Progress Node Fact) :
    (s.pending = [] ∧ equations.step s = s) ∨
    (∃ node rest, s.pending = node :: rest ∧ s.facts node = equations.evaluate s.facts node ∧
      equations.step s = ⟨s.facts, rest⟩) ∨
    (∃ node rest, s.pending = node :: rest ∧ s.facts node ≠ equations.evaluate s.facts node ∧
      equations.step s = ⟨Function.update s.facts node (equations.evaluate s.facts node),
        (equations.dependents node).foldl schedule rest⟩) := by
  unfold Equations.step
  cases hs : s.pending with
  | nil => exact Or.inl ⟨rfl, rfl⟩
  | cons node rest =>
      right
      by_cases heq : s.facts node = equations.evaluate s.facts node
      · exact Or.inl ⟨node, rest, rfl, heq, by simp only [if_pos heq]⟩
      · exact Or.inr ⟨node, rest, rfl, heq, by simp only [if_neg heq]⟩

omit [DecidableEq Fact] in
theorem Sound.drop (h : Sound equations nodes start s) {rest : List Node}
    (hs : s.pending = node :: rest) (heq : s.facts node = equations.evaluate s.facts node) :
    Sound equations nodes start ⟨s.facts, rest⟩ where
  above := h.above
  rising := h.rising
  below := h.below
  settled := by
    intro other hother hnot
    by_cases hsame : other = node
    · rw [hsame]
      exact heq
    · refine h.settled other hother ?_
      rw [hs]
      exact fun hm => (List.mem_cons.mp hm).elim hsame hnot
  listed := fun other hother => h.listed other (by rw [hs]; exact List.mem_cons_of_mem _ hother)

omit [DecidableEq Fact] in
/-- A raised fact. -/
theorem Sound.le_update (h : Sound equations nodes start s) (hnode : node ∈ nodes) :
    s.facts ≤ Function.update s.facts node (equations.evaluate s.facts node) := by
  rw [le_update_iff]
  exact ⟨h.rising node hnode, fun _ _ => le_refl _⟩

omit [DecidableEq Fact] in
/-- What a raise keeps of the invariant, whatever waits. -/
theorem Sound.raised (h : Sound equations nodes start s) (hmonotone : Monotone equations.evaluate)
    (hnode : node ∈ nodes) :
    let facts := Function.update s.facts node (equations.evaluate s.facts node)
    start ≤ facts ∧ (∀ other ∈ nodes, facts other ≤ equations.evaluate facts other) ∧
      ∀ other : Node → Fact, start ≤ other →
        (∀ node ∈ nodes, equations.evaluate other node ≤ other node) → facts ≤ other := by
  have hle := h.le_update hnode
  have hevaluate := hmonotone hle
  refine ⟨h.above.trans hle, fun other hother => ?_, fun other habove hpost => ?_⟩
  · by_cases hsame : other = node
    · rw [hsame, Function.update_self]
      exact hevaluate node
    · rw [Function.update_of_ne hsame]
      exact (h.rising other hother).trans (hevaluate other)
  · have hbelow := h.below other habove hpost
    rw [update_le_iff]
    refine ⟨?_, fun m _ => hbelow m⟩
    exact (hmonotone hbelow node).trans (hpost node hnode)

omit [DecidableEq Fact] in
theorem Sound.raise (h : Sound equations nodes start s) (hlawful : equations.Lawful nodes)
    {rest : List Node} (hs : s.pending = node :: rest) :
    Sound equations nodes start ⟨Function.update s.facts node (equations.evaluate s.facts node),
      (equations.dependents node).foldl schedule rest⟩ := by
  have hnode : node ∈ nodes := h.listed node (by rw [hs]; exact List.mem_cons_self)
  obtain ⟨habove, hrising, hbelow⟩ := h.raised hlawful.monotone hnode
  refine ⟨habove, hrising, hbelow, ?_, ?_⟩
  · intro other hother hnot
    show Function.update s.facts node _ other = _
    rw [mem_foldl_schedule, not_or] at hnot
    -- a node that is not scheduled does not read the raised fact
    rw [hlawful.locality s.facts node _ other hother hnot.2]
    by_cases hsame : other = node
    · rw [hsame, Function.update_self]
    · rw [Function.update_of_ne hsame]
      refine h.settled other hother ?_
      rw [hs]
      exact fun hm => (List.mem_cons.mp hm).elim hsame hnot.1
  · intro other hother
    rcases mem_foldl_schedule.mp hother with hm | hm
    · exact h.listed other (by rw [hs]; exact List.mem_cons_of_mem _ hm)
    · exact hlawful.closed node hnode other hm

theorem Sound.step (h : Sound equations nodes start s) (hlawful : equations.Lawful nodes) :
    Sound equations nodes start (equations.step s) := by
  rcases step_cases equations s with ⟨_, hstep⟩ | ⟨node, rest, hs, heq, hstep⟩ |
    ⟨node, rest, hs, _, hstep⟩
  · rw [hstep]
    exact h
  · rw [hstep]
    exact h.drop hs heq
  · rw [hstep]
    exact h.raise hlawful hs

theorem Sound.iterate (h : Sound equations nodes start s) (hlawful : equations.Lawful nodes)
    (steps : Nat) : Sound equations nodes start (equations.step^[steps] s) := by
  induction steps with
  | zero => exact h
  | succ n ih =>
      rw [Function.iterate_succ_apply']
      exact ih.step hlawful

omit [DecidableEq Node] [DecidableEq Fact] in
/-- **An ended run holds the least solution.** -/
theorem Sound.isLeastSolution (h : Sound equations nodes start s) (hended : s.pending = []) :
    IsLeastSolution equations nodes start s.facts where
  above := h.above
  solves := fun node hnode => h.settled node hnode (by rw [hended]; exact List.not_mem_nil)
  least := h.below

/-! ## Termination -/

omit [PartialOrder Fact] in
theorem step_ended (hended : s.pending = []) : equations.step s = s := by
  unfold Equations.step
  rw [hended]

omit [PartialOrder Fact] in
/-- An ended run stays ended. -/
theorem iterate_add (hended : (equations.step^[n] s).pending = []) (k : Nat) :
    equations.step^[k + n] s = equations.step^[n] s := by
  rw [Function.iterate_add_apply]
  exact Function.iterate_fixed (step_ended hended) k

/-- The facts of the listed nodes. -/
def restrict (nodes : List Node) (facts : Node → Fact) : {node // node ∈ nodes} → Fact :=
  fun node => facts node.1

omit [DecidableEq Fact] in
theorem restrict_lt_update {facts : Node → Fact} (hnode : node ∈ nodes) {fact : Fact} (hlt : facts node < fact) :
    restrict nodes facts < restrict nodes (Function.update facts node fact) := by
  rw [Pi.lt_def]
  constructor
  · intro other
    show facts other.1 ≤ Function.update facts node fact other.1
    by_cases hsame : other.1 = node
    · rw [hsame, Function.update_self]
      exact hlt.le
    · rw [Function.update_of_ne hsame]
  · refine ⟨⟨node, hnode⟩, ?_⟩
    show facts node < Function.update facts node fact node
    rw [Function.update_self]
    exact hlt

/-- **Every run over finitely many facts ends**: a step that changes something raises a fact, and a
step that does not shortens the list. -/
theorem iterate_ends [Finite Fact] (hlawful : equations.Lawful nodes) (h : Sound equations nodes start s) :
    ∃ n, (equations.step^[n] s).pending = [] := by
  -- the facts first, since a raise may lengthen the list
  induction hfacts : restrict nodes s.facts using WellFoundedGT.induction generalizing s with
  | ind facts ihFacts =>
      induction hlength : s.pending.length using Nat.strong_induction_on generalizing s with
      | h length ihLength =>
          rcases step_cases equations s with ⟨hended, _⟩ | ⟨node, rest, hs, heq, hstep⟩ |
            ⟨node, rest, hs, hne, hstep⟩
          · exact ⟨0, hended⟩
          · have hshorter : rest.length < length := by
              rw [← hlength, hs, List.length_cons]
              exact Nat.lt_succ_self _
            obtain ⟨n, hn⟩ := ihLength rest.length hshorter (s := ⟨s.facts, rest⟩) (h.drop hs heq)
              hfacts rfl
            refine ⟨n + 1, ?_⟩
            rw [Function.iterate_succ_apply, hstep]
            exact hn
          · have hnode : node ∈ nodes := h.listed node (by rw [hs]; exact List.mem_cons_self)
            have hlt : s.facts node < equations.evaluate s.facts node :=
              lt_of_le_of_ne (h.rising node hnode) hne
            have hraised := restrict_lt_update hnode hlt
            rw [hfacts] at hraised
            obtain ⟨n, hn⟩ := ihFacts _ hraised (h.raise hlawful hs) rfl
            refine ⟨n + 1, ?_⟩
            rw [Function.iterate_succ_apply, hstep]
            exact hn

/-- **The solver**: from some number of steps on the run has ended, in the least solution. -/
theorem run_solves [Finite Fact] (hlawful : equations.Lawful nodes)
    (hpending : ∀ node, node ∈ pending ↔ node ∈ nodes)
    (hstart : ∀ node ∈ nodes, start node ≤ equations.evaluate start node) :
    ∃ enough, ∀ steps ≥ enough, (equations.run start pending steps).pending = [] := by
  obtain ⟨n, hn⟩ := iterate_ends hlawful (sound_start hpending hstart)
  refine ⟨n, fun steps hsteps => ?_⟩
  obtain ⟨k, rfl⟩ := Nat.exists_eq_add_of_le' hsteps
  rw [Equations.run, iterate_add hn k]
  exact hn

theorem run_isLeastSolution (hlawful : equations.Lawful nodes) (hpending : ∀ node, node ∈ pending ↔ node ∈ nodes)
    (hstart : ∀ node ∈ nodes, start node ≤ equations.evaluate start node) {steps : Nat}
    (hended : (equations.run start pending steps).pending = []) :
    IsLeastSolution equations nodes start (equations.run start pending steps).facts :=
  ((sound_start hpending hstart).iterate hlawful steps).isLeastSolution hended

end Correctness

/-! ## Passes over all nodes -/

/-- Evaluate a node in place, and note whether that changed its fact. -/
def Equations.visit (equations : Equations Node Fact) (s : (Node → Fact) × Bool) (node : Node) :
    (Node → Fact) × Bool :=
  let next := equations.evaluate s.1 node
  if s.1 node = next then s else (Function.update s.1 node next, true)

/-- One pass over the nodes in their order. -/
def Equations.pass (equations : Equations Node Fact) (order : List Node) (facts : Node → Fact) :
    (Node → Fact) × Bool :=
  order.foldl equations.visit (facts, false)

/-- Passes until one changes nothing; nothing when each of so many changed something. -/
def Equations.passes (equations : Equations Node Fact) (order : List Node) :
    Nat → (Node → Fact) → Option (Node → Fact)
  | 0, _ => none
  | steps + 1, facts =>
      let result := equations.pass order facts
      if result.2 then equations.passes order steps result.1 else some result.1

section Passes

variable [PartialOrder Fact] {equations : Equations Node Fact} {nodes order : List Node}
  {start facts : Node → Fact}

/-- The invariant between the nodes of a pass: all of them wait. -/
abbrev Rises (equations : Equations Node Fact) (nodes : List Node) (start facts : Node → Fact) : Prop :=
  Sound equations nodes start ⟨facts, nodes⟩

theorem Rises.visit (h : Rises equations nodes start facts) (hmonotone : Monotone equations.evaluate)
    (hnode : node ∈ nodes) (changed : Bool) :
    Rises equations nodes start (equations.visit (facts, changed) node).1 := by
  unfold Equations.visit
  dsimp only
  split
  · exact h
  · obtain ⟨habove, hrising, hbelow⟩ := h.raised hmonotone hnode
    exact ⟨habove, hrising, hbelow, fun other hother hnot => absurd hother hnot, fun _ hother => hother⟩

/-- A visit that reports no change found the node settled; one that reports a change raised its fact. -/
theorem Rises.visit_cases (h : Rises equations nodes start facts) (hnode : node ∈ nodes) (changed : Bool) :
    (facts node = equations.evaluate facts node ∧ equations.visit (facts, changed) node = (facts, changed)) ∨
      ((equations.visit (facts, changed) node).2 = true ∧
        restrict nodes facts < restrict nodes (equations.visit (facts, changed) node).1) := by
  unfold Equations.visit
  dsimp only
  by_cases heq : facts node = equations.evaluate facts node
  · exact Or.inl ⟨heq, if_pos heq⟩
  · right
    rw [if_neg heq]
    exact ⟨rfl, restrict_lt_update hnode (lt_of_le_of_ne (h.rising node hnode) heq)⟩

/-- A pass: nothing changed and its nodes are settled, or facts rose. -/
theorem Rises.foldl (hmonotone : Monotone equations.evaluate) (horder : ∀ node ∈ order, node ∈ nodes)
    (h : Rises equations nodes start facts) (changed : Bool) :
    Rises equations nodes start (order.foldl equations.visit (facts, changed)).1 ∧
      ((order.foldl equations.visit (facts, changed) = (facts, changed) ∧
          ∀ node ∈ order, facts node = equations.evaluate facts node) ∨
        ((order.foldl equations.visit (facts, changed)).2 = true ∧
          restrict nodes facts < restrict nodes (order.foldl equations.visit (facts, changed)).1)) := by
  induction order generalizing facts changed with
  | nil => exact ⟨h, Or.inl ⟨rfl, fun _ hnode => absurd hnode List.not_mem_nil⟩⟩
  | cons node rest ih =>
      rw [List.foldl_cons]
      have hnode := horder node List.mem_cons_self
      have hrest := fun other hother => horder other (List.mem_cons_of_mem node hother)
      rcases h.visit_cases hnode changed with ⟨hsettled, hvisit⟩ | ⟨hflag, hraised⟩
      · rw [hvisit]
        obtain ⟨hrises, hcases⟩ := ih hrest h changed
        refine ⟨hrises, hcases.imp (fun hsame => ⟨hsame.1, ?_⟩) id⟩
        exact List.forall_mem_cons.mpr ⟨hsettled, hsame.2⟩
      · have hvisited := h.visit hmonotone hnode changed
        generalize equations.visit (facts, changed) node = visited at hflag hraised hvisited ⊢
        obtain ⟨facts', changed'⟩ := visited
        obtain ⟨hrises, hcases⟩ := ih hrest hvisited changed'
        refine ⟨hrises, Or.inr ?_⟩
        rcases hcases with ⟨hsame, _⟩ | ⟨hflag', hraised'⟩
        · rw [hsame]
          exact ⟨hflag, hraised⟩
        · exact ⟨hflag', hraised.trans hraised'⟩

/-- **Ended passes hold the least solution.** -/
theorem Rises.passes_isLeastSolution (hmonotone : Monotone equations.evaluate)
    (horder : ∀ node, node ∈ order ↔ node ∈ nodes) {steps : Nat} {result : Node → Fact}
    (h : Rises equations nodes start facts) (hresult : equations.passes order steps facts = some result) :
    IsLeastSolution equations nodes start result := by
  induction steps generalizing facts with
  | zero => cases hresult
  | succ steps ih =>
      obtain ⟨hrises, hcases⟩ := h.foldl hmonotone (fun node => (horder node).mp) false
      unfold Equations.passes Equations.pass at hresult
      rcases hcases with ⟨hsame, hsettled⟩ | ⟨hflag, _⟩
      · rw [hsame] at hresult
        cases hresult
        exact ⟨h.above, fun node hnode => hsettled node ((horder node).mpr hnode), h.below⟩
      · dsimp only at hresult
        rw [if_pos hflag] at hresult
        exact ih hrises hresult

/-- **Passes end** when facts cannot rise forever. -/
theorem Rises.passes_isSome [WellFoundedGT Fact] (hmonotone : Monotone equations.evaluate)
    (horder : ∀ node, node ∈ order ↔ node ∈ nodes) (h : Rises equations nodes start facts) :
    ∃ enough, ∀ steps ≥ enough, ∃ result, equations.passes order steps facts = some result := by
  have : WellFoundedGT ({node // node ∈ nodes} → Fact) :=
    ⟨(Pi.wellFoundedLT (α := fun _ : {node // node ∈ nodes} => Factᵒᵈ)).wf⟩
  induction hfacts : restrict nodes facts using WellFoundedGT.induction generalizing facts with
  | ind restricted ih =>
      obtain ⟨hrises, hcases⟩ := h.foldl hmonotone (fun node => (horder node).mp) false
      rcases hcases with ⟨hsame, _⟩ | ⟨hflag, hraised⟩
      · refine ⟨1, fun steps hsteps => ⟨facts, ?_⟩⟩
        obtain ⟨steps, rfl⟩ := Nat.exists_eq_add_of_le' hsteps
        unfold Equations.passes Equations.pass
        rw [hsame]
        rfl
      · rw [hfacts] at hraised
        obtain ⟨enough, hended⟩ := ih _ hraised hrises rfl
        refine ⟨enough + 1, fun steps hsteps => ?_⟩
        obtain ⟨steps, rfl⟩ := Nat.exists_eq_add_of_le' (Nat.le_trans (Nat.le_add_left 1 enough) hsteps)
        obtain ⟨result, hresult⟩ := hended steps (by omega)
        refine ⟨result, ?_⟩
        unfold Equations.passes Equations.pass
        dsimp only
        rw [if_pos hflag]
        exact hresult

end Passes

end Tala.Library.Dataflow
