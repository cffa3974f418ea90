import Tala.Analysis.OwnershipFlow

/-!
# `Analysis.OwnershipSoundness` — the masks hold the states of every path

The abstract side first: one state for every handle, what an action does to it, and `Arrives`, the
states in which a block can be reached along some path. Masks admit states (`Admits`), the transfer of
the analysis keeps them admitted (`transfer_admits`), so a solution of the dataflow equations admits
whatever arrives (`arrives_admitted`). The issue sweep then says which requirements no path breaks
(`safeUses_of_issues`), and the solution does not depend on how the function is listed
(`analyze_relisted`).
-/

namespace Tala.Analysis.OwnershipFlow

open Library.Catalog Library.Dataflow ControlFlowGraph

/-! ## States along paths -/

/-- The state of every handle. -/
abbrev HandleStates := HandleId → HandleState

/-- The state of a handle that holds a live token. -/
def liveState : HandleKind → HandleState
  | .strong => .strong
  | .weak => .weak
  | .unowned => .unowned

/-- What an action does to the state of its handle. -/
def Action.performOn (action : Action) (state : HandleState) : HandleState :=
  match action.kind with
  | .observe => state
  | .consume => if state = liveState action.expected then .consumed else state
  | .define => liveState action.expected
  | .forget => .absent

def Action.perform (action : Action) (states : HandleStates) : HandleStates :=
  Function.update states action.handle (action.performOn (states action.handle))

/-- The states after the actions of a block. -/
def performAll (actions : List Action) (states : HandleStates) : HandleStates :=
  actions.foldl (fun states action => action.perform states) states

/-- The states in which a caller may enter: initial handles are live, all others absent. -/
def Function.Enters (function : Function) (states : HandleStates) : Prop :=
  ∀ handle, handle ≠ 0 →
    if handle ∈ function.initialHandles.map InitialHandle.handle then
      ∃ initial ∈ function.initialHandles, initial.handle = handle ∧
        states handle = liveState initial.kind
    else states handle = .absent

/-- The states in which a block is reached along some path from the entry. A path may come back to the
entry in the states that `returns` allows. -/
inductive Function.Arrives (function : Function) (returns : HandleStates → Prop) :
    BlockId → HandleStates → Prop
  | entry {states} : function.Enters states → Arrives function returns function.entry states
  | step {id target : BlockId} {block : Block} {states} :
      Arrives function returns id states → function.findBlock id = some block →
      target ∈ block.successors →
      (target = function.entry → returns (performAll block.actions states)) →
      Arrives function returns target (performAll block.actions states)

/-- The reported incoming masks contain the states of every arrival, and cover all handles. -/
def MasksAdmit (function : Function) (returns : HandleStates → Prop) (result : Result) : Prop :=
  ∀ id states, function.Arrives returns id states →
    ∃ record ∈ result.facts, record.block = id ∧ record.reachable = true ∧
      record.incoming.map HandleFact.handle = buildHandleCatalog function ∧
      ∀ fact ∈ record.incoming, states fact.handle ∈ fact.states

/-- No path requires a handle that is consumed or of another kind; one that is missing is missing on
every path. -/
def SafeUses (function : Function) (returns : HandleStates → Prop) : Prop :=
  ∀ id states block before action after, function.Arrives returns id states →
    function.findBlock id = some block → block.actions = before ++ action :: after →
    (action.kind = .observe ∨ action.kind = .consume) →
    performAll before states action.handle = liveState action.expected ∨
      ∀ other, function.Arrives returns id other → performAll before other action.handle = .absent

/-! ## Masks that admit states -/

section Admits

variable {catalog : List HandleId} {states : HandleStates} {masks masks' : PackedState catalog}
  {action : Action}

/-- Every handle of the catalog is in a state of its mask. -/
def Admits (masks : PackedState catalog) (states : HandleStates) : Prop :=
  ∀ index, states (catalog.get index) ∈ masks index

theorem Admits.mono (h : Admits masks states) (hle : masks ≤ masks') : Admits masks' states :=
  fun index => hle index (h index)

theorem stateFor_eq (kind : HandleKind) : stateFor kind = {liveState kind} := by
  cases kind <;> rfl

variable {state : HandleState} {actions : List Action}

theorem mem_stateFor {kind : HandleKind} : state ∈ stateFor kind ↔ state = liveState kind := by
  rw [stateFor_eq, Finset.mem_singleton]

variable {mask : StateMask}

/-- The mask of a handle follows its state. -/
theorem performOn_mem (h : state ∈ mask) : action.performOn state ∈ applyMask action mask := by
  unfold Action.performOn applyMask
  cases action.kind with
  | observe => exact h
  | define =>
      show liveState action.expected ∈ stateFor action.expected
      exact mem_stateFor.mpr rfl
  | forget =>
      show HandleState.absent ∈ kAbsent
      decide
  | consume =>
      simp only
      by_cases hlive : state = liveState action.expected
      · have hmeets : mask ∩ stateFor action.expected ≠ ∅ :=
          Finset.nonempty_iff_ne_empty.mp
            ⟨state, Finset.mem_inter.mpr ⟨h, mem_stateFor.mpr hlive⟩⟩
        rw [if_pos hlive, if_pos hmeets, Finset.mem_union]
        exact Or.inr (by decide)
      · rw [if_neg hlive]
        split
        · refine Finset.mem_union_left _ (Finset.mem_sdiff.mpr ⟨h, ?_⟩)
          rw [mem_stateFor]
          exact hlive
        · exact h

theorem applyMask_mono {mask' : StateMask} (h : mask ⊆ mask') :
    applyMask action mask ⊆ applyMask action mask' := by
  unfold applyMask
  cases action.kind with
  | observe => exact h
  | define => exact Finset.Subset.refl _
  | forget => exact Finset.Subset.refl _
  | consume =>
      simp only
      by_cases hmeets : mask ∩ stateFor action.expected ≠ ∅
      · have hmeets' : mask' ∩ stateFor action.expected ≠ ∅ := by
          rw [← Finset.nonempty_iff_ne_empty] at hmeets ⊢
          exact hmeets.mono (Finset.inter_subset_inter_right h)
        rw [if_pos hmeets, if_pos hmeets']
        exact Finset.union_subset_union_left (Finset.sdiff_subset_sdiff h (Finset.Subset.refl _))
      · rw [if_neg hmeets]
        intro state hstate
        split
        · -- a state of the smaller mask is not the consumed one
          refine Finset.mem_union_left _ (Finset.mem_sdiff.mpr ⟨h hstate, fun hexpected => hmeets ?_⟩)
          exact Finset.nonempty_iff_ne_empty.mp
            ⟨state, Finset.mem_inter.mpr ⟨hstate, hexpected⟩⟩
        · exact h hstate

theorem apply_admits (hcatalog : catalog.Nodup) (h : Admits masks states) :
    Admits (apply action masks) (action.perform states) := by
  intro index
  unfold apply Action.perform
  cases hindex : index? catalog action.handle with
  | none =>
      have hne : catalog.get index ≠ action.handle := by
        rintro heq
        exact index?_eq_none.mp hindex (heq ▸ List.get_mem catalog index)
      rw [Function.update_of_ne hne]
      exact h index
  | some position =>
      have hget := get_of_index? hindex
      by_cases hsame : index = position
      · rw [hsame, hget]
        show Function.update states _ _ _ ∈ Function.update masks _ _ _
        rw [Function.update_self, Function.update_self]
        have hmem := h position
        rw [hget] at hmem
        exact performOn_mem hmem
      · have hne : catalog.get index ≠ action.handle := by
          intro heq
          have hposition := index?_get hcatalog index
          rw [heq, hindex] at hposition
          exact hsame (Option.some.inj hposition).symm
        show Function.update states _ _ _ ∈ Function.update masks _ _ _
        rw [Function.update_of_ne hne, Function.update_of_ne hsame]
        exact h index

theorem apply_mono (h : masks ≤ masks') : apply action masks ≤ apply action masks' := by
  unfold apply
  cases index? catalog action.handle with
  | none => exact h
  | some position =>
      intro index
      show Function.update masks _ _ _ ≤ Function.update masks' _ _ _
      by_cases hsame : index = position
      · rw [hsame, Function.update_self, Function.update_self]
        exact applyMask_mono (h position)
      · rw [Function.update_of_ne hsame, Function.update_of_ne hsame]
        exact h index

/-- **The transfer of a block keeps the states of a path admitted.** -/
theorem transfer_admits (hcatalog : catalog.Nodup) (h : Admits masks states) :
    Admits (transfer actions masks) (performAll actions states) := by
  unfold transfer performAll
  induction actions generalizing masks states with
  | nil => exact h
  | cons action rest ih => exact ih (apply_admits hcatalog h)

theorem transfer_mono (h : masks ≤ masks') : transfer actions masks ≤ transfer actions masks' := by
  unfold transfer
  induction actions generalizing masks masks' with
  | nil => exact h
  | cons action rest ih => exact ih (apply_mono h)

end Admits

/-! ## The initial state -/

section Initial

variable {catalog : List HandleId}

/-- A live token is in the mask of its kind, and no mask of kinds holds the absent state. -/
theorem absent_not_mem_stateFor (kind : HandleKind) : HandleState.absent ∉ stateFor kind := by
  cases kind <;> decide

/-- Masks of initial handles: still absent, or made of kinds. -/
def Recorded (mask : StateMask) : Prop := mask = kAbsent ∨ HandleState.absent ∉ mask

/-- One recorded handle: others keep their masks, its own holds its kind, and no kind is lost. -/
theorem recordInitial_spec (entry : BlockId) (initial : InitialHandle) {masks : PackedState catalog}
    (hrecorded : ∀ index, Recorded (masks index)) (index : Fin catalog.length) :
    Recorded ((recordInitial entry masks initial).1 index) ∧
      (catalog.get index ≠ initial.handle →
        (recordInitial entry masks initial).1 index = masks index) ∧
      (initial.handle ≠ 0 → index? catalog initial.handle = some index →
        liveState initial.kind ∈ (recordInitial entry masks initial).1 index) ∧
      ∀ kind, liveState kind ∈ masks index →
        liveState kind ∈ (recordInitial entry masks initial).1 index := by
  unfold recordInitial
  by_cases hzero : initial.handle = 0
  · rw [if_pos hzero]
    exact ⟨hrecorded index, fun _ => rfl, fun h => absurd hzero h, fun _ h => h⟩
  rw [if_neg hzero]
  cases hindex : index? catalog initial.handle with
  | none => exact ⟨hrecorded index, fun _ => rfl, fun _ h => (by cases h), fun _ h => h⟩
  | some position =>
      simp only
      by_cases hsame : index = position
      · rw [hsame, Function.update_self]
        refine ⟨Or.inr ?_, fun hne => absurd (get_of_index? hindex) hne, fun _ _ => ?_, fun kind hk => ?_⟩
        · rw [Finset.mem_union, not_or]
          refine ⟨?_, absent_not_mem_stateFor _⟩
          split
          · exact Finset.notMem_empty _
          · next hpresent => exact (hrecorded position).resolve_left hpresent
        · exact Finset.mem_union_right _ (mem_stateFor.mpr rfl)
        · refine Finset.mem_union_left _ ?_
          rw [if_neg]
          · exact hk
          · intro habsent
            rw [habsent] at hk
            cases kind <;> exact absurd hk (by decide)
      · rw [Function.update_of_ne hsame]
        exact ⟨hrecorded index, fun _ => rfl, fun _ h => absurd (Option.some.inj h).symm hsame,
          fun _ h => h⟩

theorem recordInitials_spec (entry : BlockId) (initialHandles : List InitialHandle)
    (masks : PackedState catalog) (hrecorded : ∀ index, Recorded (masks index)) (index : Fin catalog.length) :
    (catalog.get index ∉ initialHandles.map InitialHandle.handle →
        (recordInitials entry masks initialHandles).1 index = masks index) ∧
      (∀ initial ∈ initialHandles, initial.handle ≠ 0 →
        index? catalog initial.handle = some index →
        liveState initial.kind ∈ (recordInitials entry masks initialHandles).1 index) ∧
      ∀ kind, liveState kind ∈ masks index →
        liveState kind ∈ (recordInitials entry masks initialHandles).1 index := by
  induction initialHandles generalizing masks with
  | nil => exact ⟨fun _ => rfl, fun _ h => absurd h List.not_mem_nil, fun _ h => h⟩
  | cons first rest ih =>
      have hfirst := recordInitial_spec entry first hrecorded
      obtain ⟨hother, hmember, hkept⟩ := ih _ fun i => (hfirst i).1
      refine ⟨?_, ?_, ?_⟩
      · intro hnot
        rw [List.map_cons, List.mem_cons, not_or] at hnot
        exact (hother hnot.2).trans ((hfirst index).2.1 hnot.1)
      · intro initial hinitial hzero hindex
        rcases List.mem_cons.mp hinitial with rfl | hinitial
        · exact hkept _ ((hfirst index).2.2.1 hzero hindex)
        · exact hmember initial hinitial hzero hindex
      · intro kind hkind
        exact hkept kind ((hfirst index).2.2.2 kind hkind)

end Initial

section Function

variable {function : Function}

theorem buildHandleCatalog_nodup (function : Function) : (buildHandleCatalog function).Nodup :=
  sortedUnique_nodup _

theorem ne_zero_of_mem_catalog {handle : HandleId} (h : handle ∈ buildHandleCatalog function) : handle ≠ 0 := by
  rw [buildHandleCatalog, mem_sortedUnique, List.mem_append, List.mem_filter, List.mem_filter] at h
  rcases h with ⟨_, h⟩ | ⟨_, h⟩ <;> simpa using h

variable {states : HandleStates} {id : BlockId} {block : Block}

/-- **The initial masks admit every state in which a caller may enter.** -/
theorem initialState_admits (h : function.Enters states) :
    Admits (initialState (buildHandleCatalog function) function.entry function.initialHandles).1
      states := by
  intro index
  have hzero : (buildHandleCatalog function).get index ≠ 0 :=
    ne_zero_of_mem_catalog (List.get_mem _ index)
  obtain ⟨hother, hmember, _⟩ := recordInitials_spec function.entry function.initialHandles
    (fun _ : Fin (buildHandleCatalog function).length => kAbsent) (fun _ => Or.inl rfl) index
  have henters := h _ hzero
  by_cases hlisted : (buildHandleCatalog function).get index
      ∈ function.initialHandles.map InitialHandle.handle
  · rw [if_pos hlisted] at henters
    obtain ⟨initial, hinitial, hhandle, hstate⟩ := henters
    rw [hstate]
    refine hmember initial hinitial (hhandle ▸ hzero) ?_
    rw [hhandle]
    exact index?_get (buildHandleCatalog_nodup function) index
  · rw [if_neg hlisted] at henters
    rw [initialState, hother hlisted, henters]
    decide

theorem findBlock_controlFlowFor (function : Function) (id : BlockId) :
    (controlFlowFor function).findBlock id
      = (function.findBlock id).map fun block => ⟨block.id, block.successors⟩ := by
  unfold controlFlowFor ControlFlowGraph.findBlock Function.findBlock
  rw [List.find?_map]
  rfl

theorem actionsOf_eq (h : function.findBlock id = some block) : function.actionsOf id = block.actions := by
  rw [Function.actionsOf, h]

end Function

/-! ## The equations -/

section Equations

variable {catalog : List HandleId} {graph : ControlFlowGraph} {actionsOf : BlockId → List Action}
  {initial : PackedState catalog}

/-- The states that reach and leave a block, as the solver sees them. -/
abbrev FlowState (catalog : List HandleId) := PackedState catalog × PackedState catalog

theorem foldl_union (sources : List BlockId) (outgoing : BlockId → PackedState catalog)
    (start : PackedState catalog) (index : Fin catalog.length) (state : HandleState) :
    state ∈ sources.foldl (fun joined source => joined ⊔ outgoing source) start index ↔
      state ∈ start index ∨ ∃ source ∈ sources, state ∈ outgoing source index := by
  induction sources generalizing start with
  | nil => simp
  | cons first rest ih =>
      rw [List.foldl_cons, ih]
      simp [or_assoc]

variable {entry : BlockId} {flow : ControlFlowResult} {block : BlockId}

/-- What reaches a block other than the entry: what leaves its reachable predecessors. -/
theorem mem_joinPredecessors (hentry : block ≠ entry) (hreach : graph.IsReachable block)
    (hedge : ∃ source, graph.IsReachable source ∧ block ∈ graph.validSuccessors source)
    (outgoing : BlockId → PackedState catalog) (index : Fin catalog.length) (state : HandleState) :
    state ∈ joinPredecessors entry (analyzeControlFlow graph) initial outgoing block index ↔
      ∃ source, graph.IsReachable source ∧ block ∈ graph.validSuccessors source ∧
        state ∈ outgoing source index := by
  unfold joinPredecessors
  rw [if_neg hentry, flowFact_of_reachable hreach]
  obtain ⟨source, hsource⟩ := hedge
  have hnonempty : (graph.blockFacts block).predecessors ≠ [] :=
    List.ne_nil_of_mem (mem_predecessors_blockFacts.mpr hsource)
  simp only [if_neg hnonempty, foldl_union, Finset.notMem_empty, false_or,
    mem_predecessors_blockFacts, and_assoc]

/-- A solved block: what reaches it is joined, what leaves it is transferred. -/
theorem evaluate_parts {facts : BlockId → FlowState catalog}
    (h : facts block = evaluate entry flow actionsOf initial facts block) :
    (facts block).1 = joinPredecessors entry flow initial (fun b => (facts b).2) block ∧
      (facts block).2 = transfer (actionsOf block) (facts block).1 := by
  have hin : (facts block).1 = joinPredecessors entry flow initial (fun b => (facts b).2) block :=
    congrArg Prod.fst h
  refine ⟨hin, ?_⟩
  rw [hin]
  exact congrArg Prod.snd h

theorem evaluate_mono (entry : BlockId) (flow : ControlFlowResult) :
    Monotone (evaluate entry flow actionsOf initial) := by
  intro facts facts' hle block
  have hjoin : joinPredecessors entry flow initial (fun b => (facts b).2) block
      ≤ joinPredecessors entry flow initial (fun b => (facts' b).2) block := by
    unfold joinPredecessors
    split
    · exact le_refl _
    split
    · exact le_refl _
    split
    · exact le_refl _
    intro index state hstate
    rw [foldl_union] at hstate ⊢
    rcases hstate with hstate | ⟨source, hsource, hstate⟩
    · exact Or.inl hstate
    · exact Or.inr ⟨source, hsource, (hle source).2 index hstate⟩
  exact ⟨hjoin, transfer_mono hjoin⟩

/-- Of the control flow the equations use the facts of the blocks only. -/
theorem evaluate_congr {flow' : ControlFlowResult} (h : ∀ id, flow'.flowFact id = flow.flowFact id) :
    evaluate entry flow' actionsOf initial = evaluate entry flow actionsOf initial := by
  funext facts block
  unfold evaluate joinPredecessors
  rw [h]

/-- The facts of a block come from its reachable predecessors. -/
theorem evaluate_local {facts facts' : BlockId → FlowState catalog} {reader : BlockId}
    (hreach : graph.IsReachable reader)
    (hsame : ∀ source, graph.IsReachable source → reader ∈ graph.validSuccessors source →
      facts source = facts' source) :
    evaluate graph.entry (analyzeControlFlow graph) actionsOf initial facts reader
      = evaluate graph.entry (analyzeControlFlow graph) actionsOf initial facts' reader := by
  have hjoin : joinPredecessors graph.entry (analyzeControlFlow graph) initial
        (fun b => (facts b).2) reader
      = joinPredecessors graph.entry (analyzeControlFlow graph) initial
        (fun b => (facts' b).2) reader := by
    by_cases hentry : reader = graph.entry
    · unfold joinPredecessors
      rw [if_pos hentry, if_pos hentry]
    · funext index
      ext state
      rw [mem_joinPredecessors hentry hreach (hreach.exists_edge hentry),
        mem_joinPredecessors hentry hreach (hreach.exists_edge hentry)]
      constructor
      · rintro ⟨source, hsource, hedge, hstate⟩
        exact ⟨source, hsource, hedge, hsame source hsource hedge ▸ hstate⟩
      · rintro ⟨source, hsource, hedge, hstate⟩
        exact ⟨source, hsource, hedge, (hsame source hsource hedge).symm ▸ hstate⟩
  unfold evaluate
  rw [hjoin]

theorem evaluate_lawful (graph : ControlFlowGraph) (actionsOf : BlockId → List Action)
    (initial : PackedState catalog) :
    ((analyzeControlFlow graph).equations .forward
      (evaluate graph.entry (analyzeControlFlow graph) actionsOf initial)).Lawful
      graph.traversal.preorder :=
  forward_lawful (evaluate_mono _ _) fun _ _ _ hreach hsame => evaluate_local hreach hsame

/-- Empty masks, from which the solver starts. -/
def noStates (catalog : List HandleId) : BlockId → FlowState catalog :=
  fun _ => (fun _ => ∅, fun _ => ∅)

theorem noStates_le (facts : BlockId → FlowState catalog) : noStates catalog ≤ facts :=
  fun _ => ⟨fun _ => Finset.empty_subset _, fun _ => Finset.empty_subset _⟩

theorem computeFixedPoint_isSome (graph : ControlFlowGraph) (actionsOf : BlockId → List Action)
    (initial : PackedState catalog) :
    ∃ enough, ∀ steps ≥ enough, ∃ facts, computeFixedPoint graph.entry (analyzeControlFlow graph)
      actionsOf initial steps = some facts :=
  solve_isSome (evaluate_lawful graph actionsOf initial) fun _ _ => noStates_le _ _

theorem computeFixedPoint_isLeast (graph : ControlFlowGraph) {steps : Nat} {facts : BlockId → FlowState catalog}
    (h : computeFixedPoint graph.entry (analyzeControlFlow graph) actionsOf initial steps
      = some facts) :
    IsLeastSolution ((analyzeControlFlow graph).equations .forward
      (evaluate graph.entry (analyzeControlFlow graph) actionsOf initial)) graph.traversal.preorder
      (noStates catalog) facts :=
  solve_isLeastSolution (evaluate_lawful graph actionsOf initial) (fun _ _ => noStates_le _ _) h

end Equations

/-! ## Arrivals are admitted -/

section Arrivals

variable {function : Function} {steps : Nat}
  {facts : BlockId → FlowState (buildHandleCatalog function)}

/-- The fixed point the analysis of a function computes. -/
def fixedPointOf (function : Function) (steps : Nat) :
    Option (BlockId → FlowState (buildHandleCatalog function)) :=
  computeFixedPoint function.entry (analyzeControlFlow (controlFlowFor function)) function.actionsOf
    (initialState (buildHandleCatalog function) function.entry function.initialHandles).1 steps

theorem fixedPointOf_isSome (function : Function) :
    ∃ enough, ∀ steps ≥ enough, ∃ facts, fixedPointOf function steps = some facts :=
  computeFixedPoint_isSome (controlFlowFor function) function.actionsOf _

variable {id : BlockId}

/-- The fixed point solves the equations of the reachable blocks. -/
theorem fixedPointOf_solves (hfacts : fixedPointOf function steps = some facts)
    (hreach : (controlFlowFor function).IsReachable id) :
    (facts id).1 = joinPredecessors function.entry (analyzeControlFlow (controlFlowFor function))
        (initialState (buildHandleCatalog function) function.entry function.initialHandles).1
        (fun b => (facts b).2) id ∧
      (facts id).2 = transfer (function.actionsOf id) (facts id).1 :=
  evaluate_parts
    ((computeFixedPoint_isLeast (controlFlowFor function) hfacts).solves id (mem_preorder.mpr hreach))

section Valid

variable (hvalid : (analyzeControlFlow (controlFlowFor function)).issues = [])

include hvalid

theorem isReachable_entry : (controlFlowFor function).IsReachable function.entry :=
  ⟨(issues_eq_nil.mp hvalid).2.1, Relation.ReflTransGen.refl⟩

variable {states : HandleStates}

theorem entry_admitted (hfacts : fixedPointOf function steps = some facts)
    (henters : function.Enters states) : Admits (facts function.entry).1 states := by
  rw [(fixedPointOf_solves hfacts (isReachable_entry hvalid)).1, joinPredecessors, if_pos rfl]
  exact initialState_admits henters

theorem isReachable_target {target : BlockId} {block : Block} (hreach : (controlFlowFor function).IsReachable id)
    (hblock : function.findBlock id = some block) (htarget : target ∈ block.successors) :
    target ∈ (controlFlowFor function).validSuccessors id ∧
      (controlFlowFor function).IsReachable target := by
  have hfound : (controlFlowFor function).findBlock id = some ⟨block.id, block.successors⟩ := by
    rw [findBlock_controlFlowFor, hblock]
    rfl
  have hedge := mem_validSuccessors_of_valid hvalid hfound htarget
  exact ⟨hedge, hreach.next hedge⟩

/-- What a block leaves is admitted by the blocks it leads to, except by the entry. -/
theorem target_admitted (hfacts : fixedPointOf function steps = some facts) {target : BlockId} {block : Block}
    (hreach : (controlFlowFor function).IsReachable id)
    (hblock : function.findBlock id = some block) (htarget : target ∈ block.successors)
    (hforward : target ≠ function.entry)
    (hadmits : Admits (transfer block.actions (facts id).1) states) : Admits (facts target).1 states := by
  obtain ⟨hedge, hreach'⟩ := isReachable_target hvalid hreach hblock htarget
  rw [← actionsOf_eq hblock, ← (fixedPointOf_solves hfacts hreach).2] at hadmits
  intro index
  rw [(fixedPointOf_solves hfacts hreach').1, mem_joinPredecessors hforward hreach' ⟨id, hreach, hedge⟩]
  exact ⟨id, hreach, hedge, hadmits index⟩

/-- **Every state in which a block is reached is admitted by its incoming masks.** -/
theorem arrives_admitted (hfacts : fixedPointOf function steps = some facts)
    (harrives : function.Arrives function.Enters id states) :
    (controlFlowFor function).IsReachable id ∧ Admits (facts id).1 states := by
  induction harrives with
  | entry henters => exact ⟨isReachable_entry hvalid, entry_admitted hvalid hfacts henters⟩
  | @step id target block states _ hblock htarget hreturns ih =>
      obtain ⟨hreach, hadmits⟩ := ih
      refine ⟨(isReachable_target hvalid hreach hblock htarget).2, ?_⟩
      by_cases hback : target = function.entry
      · rw [hback]
        exact entry_admitted hvalid hfacts (hreturns hback)
      · exact target_admitted hvalid hfacts hreach hblock htarget hback
          (transfer_admits (buildHandleCatalog_nodup function) hadmits)

end Valid

/-! ## What is reported -/

theorem visibleFacts_handles {catalog : List HandleId} (masks : PackedState catalog) :
    (visibleFacts masks).map HandleFact.handle = catalog := by
  unfold visibleFacts
  rw [List.map_map]
  show (List.finRange catalog.length).map catalog.get = catalog
  rw [← List.ofFn_eq_map, List.ofFn_get]

/-- A reported mask contains the state that its packed mask admits. -/
theorem visibleFacts_mem {catalog : List HandleId} {masks : PackedState catalog}
    {states : HandleStates} (h : Admits masks states) :
    ∀ fact ∈ visibleFacts masks, states fact.handle ∈ fact.states := by
  intro fact hfact
  obtain ⟨index, _, rfl⟩ := List.mem_map.mp hfact
  have hnonempty : masks index ≠ ∅ := Finset.ne_empty_of_mem (h index)
  show states (catalog.get index) ∈ if masks index = ∅ then kAbsent else masks index
  rw [if_neg hnonempty]
  exact h index

/-- The result for a fixed point. -/
def resultOf (function : Function) (materializeFacts : Bool)
    (facts : BlockId → FlowState (buildHandleCatalog function)) : Result :=
  let flow := analyzeControlFlow (controlFlowFor function)
  { facts := if materializeFacts then buildFacts flow facts else [],
    issues := flow.issues.map (controlFlowIssue function.actionsOf)
      ++ (initialState (buildHandleCatalog function) function.entry function.initialHandles).2
      ++ flow.preorder.flatMap fun block =>
        validateActions block (facts block).1 (function.actionsOf block) }

theorem analyze_eq (function : Function) (materializeFacts : Bool) (steps : Nat) :
    analyze function materializeFacts steps
      = (fixedPointOf function steps).map (resultOf function materializeFacts) := rfl

theorem resultOf_masksAdmit (hvalid : (analyzeControlFlow (controlFlowFor function)).issues = [])
    (hfacts : fixedPointOf function steps = some facts) :
    MasksAdmit function function.Enters (resultOf function true facts) := by
  intro id states harrives
  obtain ⟨hreach, hadmits⟩ := arrives_admitted hvalid hfacts harrives
  have hrecord : (controlFlowFor function).blockFacts id
      ∈ (analyzeControlFlow (controlFlowFor function)).facts :=
    List.mem_map_of_mem hreach.mem_blockIds
  have hreachable := reachable_blockFacts.mpr hreach
  refine ⟨_, List.mem_map_of_mem hrecord, rfl, hreachable, ?_, ?_⟩
  · exact visibleFacts_handles _
  · show ∀ fact ∈ visibleFacts (if ((controlFlowFor function).blockFacts id).reachable = true
      then (facts id).1 else fun _ => kAbsent), _
    rw [if_pos hreachable]
    exact visibleFacts_mem hadmits

/-! ## The issue sweep -/

/-- A requirement without an issue meets its kind only, or nothing but absent handles. -/
theorem requirementIssue_eq_none (kind : HandleKind) (mask : StateMask) :
    requirementIssue (stateFor kind) mask = none → mask ⊆ stateFor kind ∨ mask ⊆ kAbsent := by
  cases kind <;> revert mask <;> decide

variable {before after : List Action} {action : Action} {materializeFacts : Bool}

theorem validateActions_split {catalog : List HandleId} {block : BlockId} {masks : PackedState catalog}
    (h : validateActions block masks (before ++ action :: after) = []) :
    validateAction block (transfer before masks) action = [] := by
  induction before generalizing masks with
  | nil => exact (List.append_eq_nil_iff.mp h).1
  | cons first rest ih => exact ih (List.append_eq_nil_iff.mp h).2

/-- The findings of an action in the states that reach it are findings of its block. -/
theorem validateActions_mem {catalog : List HandleId} {block : BlockId} {masks : PackedState catalog}
    {issue : Issue} (h : issue ∈ validateAction block (transfer before masks) action) :
    issue ∈ validateActions block masks (before ++ action :: after) := by
  induction before generalizing masks with
  | nil => exact List.mem_append_left _ h
  | cons first rest ih => exact List.mem_append_right _ (ih h)

theorem mem_buildHandleCatalog {block : Block}
    (hblock : function.findBlock id = some block) (haction : action ∈ block.actions)
    (hzero : action.handle ≠ 0) : action.handle ∈ buildHandleCatalog function := by
  rw [buildHandleCatalog, mem_sortedUnique, List.mem_append, List.mem_filter, List.mem_filter]
  refine Or.inr ⟨?_, by simpa using hzero⟩
  exact List.mem_map_of_mem (List.mem_flatMap.mpr ⟨block, List.mem_of_find?_eq_some hblock, haction⟩)

/-- The kinds of finding a requirement gives rise to. -/
def isRequirementKind (kind : IssueKind) : Prop :=
  kind = .useAfterConsume ∨ kind = .handleKindMismatch ∨ kind = .pathStateMismatch

theorem requirementIssue_kind {expected actual : StateMask} {kind : IssueKind}
    (h : requirementIssue expected actual = some kind) : isRequirementKind kind := by
  unfold requirementIssue at h
  simp only at h
  split at h
  · exact Or.inr (Or.inr (Option.some.inj h).symm)
  split at h
  · exact Or.inl (Option.some.inj h).symm
  split at h
  · exact Or.inr (Or.inl (Option.some.inj h).symm)
  · cases h

/-- **A requirement without a finding**: the mask at the action holds states of its kind only, or the
absent one only. -/
theorem requirement_met {block : Block}
    (hblock : function.findBlock id = some block) (hactions : block.actions = before ++ action :: after)
    (hkind : action.kind = .observe ∨ action.kind = .consume) (hzero : action.handle ≠ 0)
    (hissues : ∀ issue ∈ validateActions id (facts id).1 block.actions, ¬ isRequirementKind issue.kind) :
    ∃ index, (buildHandleCatalog function).get index = action.handle ∧
      (transfer before (facts id).1 index ⊆ stateFor action.expected ∨
        transfer before (facts id).1 index ⊆ kAbsent) := by
  rw [hactions] at hissues
  have hmember : action ∈ block.actions := by
    rw [hactions]
    exact List.mem_append_right _ List.mem_cons_self
  obtain ⟨index, hindex⟩ := index?_isSome (mem_buildHandleCatalog hblock hmember hzero)
  have hvalidate : validateAction id (transfer before (facts id).1) action
      = validateRequirement action id (transfer before (facts id).1 index) := by
    unfold validateAction
    rw [if_neg hzero, hindex]
    exact if_pos hkind
  have hnone : requirementIssue (stateFor action.expected) (transfer before (facts id).1 index)
      = none := by
    cases hrequirement : requirementIssue (stateFor action.expected)
        (transfer before (facts id).1 index) with
    | none => rfl
    | some kind =>
        have hfinding : validateAction id (transfer before (facts id).1) action
            = [{ kind := kind, block := id, instruction := action.instruction,
                 terminator := action.terminator, handle := action.handle,
                 expected := action.expected, actual := transfer before (facts id).1 index }] := by
          rw [hvalidate, validateRequirement, hrequirement]
        have hfound := List.mem_singleton.mpr (Eq.refl (Issue.mk kind id action.instruction
          action.terminator action.handle action.expected (transfer before (facts id).1 index)))
        rw [← hfinding] at hfound
        exact absurd (requirementIssue_kind hrequirement) (hissues _ (validateActions_mem hfound))
  exact ⟨index, get_of_index? hindex, requirementIssue_eq_none _ _ hnone⟩

/-- **Without issues every path meets its requirements**, up to handles that no path brings live. -/
theorem resultOf_safeUses (hvalid : (analyzeControlFlow (controlFlowFor function)).issues = [])
    (hfacts : fixedPointOf function steps = some facts)
    (hissues : (resultOf function materializeFacts facts).issues = []) :
    SafeUses function function.Enters := by
  intro id states block before action after harrives hblock hactions hkind
  obtain ⟨hreach, hadmits⟩ := arrives_admitted hvalid hfacts harrives
  have hsweep : validateActions id (facts id).1 block.actions = [] := by
    have hflat := (List.append_eq_nil_iff.mp hissues).2
    rw [List.flatMap_eq_nil_iff] at hflat
    have hid := hflat id (mem_preorder.mpr hreach)
    rw [actionsOf_eq hblock] at hid
    exact hid
  have hzero : action.handle ≠ 0 := by
    intro hzero
    rw [hactions] at hsweep
    have haction := validateActions_split hsweep
    unfold validateAction at haction
    rw [if_pos hzero] at haction
    cases haction
  obtain ⟨index, hget, hmet⟩ := requirement_met hblock hactions hkind hzero
    fun issue hissue => absurd (hsweep ▸ hissue) List.not_mem_nil
  -- every arrival is admitted by the mask that was swept
  have hswept : ∀ other, function.Arrives function.Enters id other →
      performAll before other action.handle ∈ transfer before (facts id).1 index := by
    intro other hother
    rw [← hget]
    exact transfer_admits (buildHandleCatalog_nodup function) (arrives_admitted hvalid hfacts hother).2
      index
  rcases hmet with hexpected | habsent
  · exact Or.inl (mem_stateFor.mp (hexpected (hswept states harrives)))
  · exact Or.inr fun other hother => Finset.mem_singleton.mp (habsent (hswept other hother))

end Arrivals

/-! ## The listing of the function -/

section Relisting

variable {function relisted : Function}

/-- The same function with its blocks, and the edges of each block, in another order. -/
def Relists (function relisted : Function) : Prop :=
  relisted.entry = function.entry ∧ relisted.initialHandles = function.initialHandles ∧
    ∃ blocks, function.blocks.Perm blocks ∧
      List.Forall₂ (fun block other => other.id = block.id ∧ other.actions = block.actions ∧
        block.successors.Perm other.successors) blocks relisted.blocks

variable {blocks : List Block}

theorem relists_perm (h : function.blocks.Perm blocks) : Relists function { function with blocks := blocks } :=
  ⟨rfl, rfl, blocks, h, List.forall₂_same.mpr fun _ _ => ⟨rfl, rfl, List.Perm.refl _⟩⟩

section Relisted

variable (h : Relists function relisted)

include h

/-- The records of one identity in two listings. -/
theorem Relists.findBlock (hnodup : (function.blocks.map Block.id).Nodup) (id : BlockId) :
    (function.findBlock id = none ∧ relisted.findBlock id = none) ∨
      ∃ block other, function.findBlock id = some block ∧ relisted.findBlock id = some other ∧
        other.id = block.id ∧ other.actions = block.actions ∧
        block.successors.Perm other.successors := by
  obtain ⟨_, _, blocks, hperm, hrelated⟩ := h
  exact find?_relisted Block.id (fun _ _ hrelated => hrelated.1) hperm hrelated hnodup id

theorem Relists.mem_blocks {p : BlockId → List Action → Prop} :
    (∃ block ∈ relisted.blocks, p block.id block.actions) ↔
      ∃ block ∈ function.blocks, p block.id block.actions := by
  obtain ⟨_, _, blocks, hperm, hrelated⟩ := h
  simp only [hperm.mem_iff]
  clear hperm
  generalize relisted.blocks = others at hrelated ⊢
  induction hrelated with
  | nil => simp
  | cons hrelated _ ih => simp only [List.exists_mem_cons_iff, ih, hrelated.1, hrelated.2.1]

theorem Relists.actionsOf
    (hnodup : (function.blocks.map Block.id).Nodup) : relisted.actionsOf = function.actionsOf := by
  funext id
  unfold Function.actionsOf
  rcases h.findBlock hnodup id with ⟨hnone, hnone'⟩ | ⟨block, other, hsome, hsome', _, hactions, _⟩
  · rw [hnone, hnone']
  · rw [hsome, hsome']
    exact hactions

theorem Relists.catalog : buildHandleCatalog relisted = buildHandleCatalog function := by
  refine sortedUnique_congr fun handle => ?_
  have hactions := h.mem_blocks (p := fun _ actions => ∃ action ∈ actions, action.handle = handle)
  simp only [List.mem_append, List.mem_filter, List.mem_map, List.mem_flatMap, h.2.1]
  refine or_congr_right (and_congr_left fun _ => ?_)
  constructor
  · rintro ⟨action, ⟨block, hblock, haction⟩, hhandle⟩
    obtain ⟨other, hother, action', haction', hhandle'⟩ :=
      hactions.mp ⟨block, hblock, action, haction, hhandle⟩
    exact ⟨action', ⟨other, hother, haction'⟩, hhandle'⟩
  · rintro ⟨action, ⟨block, hblock, haction⟩, hhandle⟩
    obtain ⟨other, hother, action', haction', hhandle'⟩ :=
      hactions.mpr ⟨block, hblock, action, haction, hhandle⟩
    exact ⟨action', ⟨other, hother, haction'⟩, hhandle'⟩

theorem Relists.controlFlow : ControlFlowGraph.Relists (controlFlowFor function) (controlFlowFor relisted) := by
  obtain ⟨hentry, _, blocks, hperm, hrelated⟩ := h
  refine ⟨hentry, _, hperm.map _, ?_⟩
  unfold controlFlowFor
  rw [List.forall₂_map_left_iff, List.forall₂_map_right_iff]
  exact hrelated.imp fun _ _ hrelated => ⟨hrelated.1, hrelated.2.2⟩

theorem Relists.sameEdges (hnodup : (function.blocks.map Block.id).Nodup) :
    SameEdges (controlFlowFor function) (controlFlowFor relisted) := by
  refine h.controlFlow.sameEdges ?_
  unfold controlFlowFor
  rw [List.map_map]
  exact hnodup

theorem Relists.ids_perm : (function.blocks.map Block.id).Perm (relisted.blocks.map Block.id) := by
  obtain ⟨_, _, blocks, hperm, hrelated⟩ := h
  refine (hperm.map Block.id).trans (List.Perm.of_eq ?_)
  clear hperm
  generalize relisted.blocks = others at hrelated ⊢
  induction hrelated with
  | nil => rfl
  | cons hrelated _ ih => rw [List.map_cons, List.map_cons, ih, hrelated.1]

/-- Every block of the relisted function has the edges of a block of the function. -/
theorem Relists.targets {other : Block} (hother : other ∈ relisted.blocks) :
    ∃ block ∈ function.blocks, block.successors.Perm other.successors := by
  obtain ⟨_, _, blocks, hperm, hrelated⟩ := h
  simp only [hperm.mem_iff]
  clear hperm
  generalize relisted.blocks = others at hrelated hother
  induction hrelated with
  | nil => cases hother
  | @cons block first _ _ hrelated _ ih =>
      rcases List.mem_cons.mp hother with rfl | hother
      · exact ⟨block, List.mem_cons_self, hrelated.2.2⟩
      · obtain ⟨found, hfound, hperm⟩ := ih hother
        exact ⟨found, List.mem_cons_of_mem _ hfound, hperm⟩

end Relisted

theorem map_id_controlFlowFor (function : Function) :
    (controlFlowFor function).blocks.map ControlFlowBlock.id = function.blocks.map Block.id := by
  unfold controlFlowFor
  rw [List.map_map]
  rfl

theorem Relists.valid (h : Relists function relisted)
    (hvalid : (analyzeControlFlow (controlFlowFor function)).issues = []) :
    (analyzeControlFlow (controlFlowFor relisted)).issues = [] := by
  obtain ⟨hnodup, hentry, htargets⟩ := issues_eq_nil.mp hvalid
  rw [map_id_controlFlowFor] at hnodup
  have hsame := h.sameEdges hnodup
  rw [issues_eq_nil, map_id_controlFlowFor, hsame.blockIds]
  refine ⟨h.ids_perm.nodup_iff.mp hnodup, ?_, ?_⟩
  · rw [hsame.entry]
    exact hentry
  · intro block hblock target htarget
    obtain ⟨other, hother, rfl⟩ := List.mem_map.mp hblock
    obtain ⟨source, hsource, hperm⟩ := h.targets hother
    exact htargets _ (List.mem_map_of_mem hsource) target (hperm.mem_iff.mpr htarget)

/-- **The result does not depend on the listing**: the facts are the same, and so are the issues, which
follow the traversal order. -/
theorem analyze_relisted (h : Relists function relisted)
    (hvalid : (analyzeControlFlow (controlFlowFor function)).issues = []) {steps steps' : Nat}
    {result other : Result} {materializeFacts : Bool}
    (hresult : analyze function materializeFacts steps = some result)
    (hother : analyze relisted materializeFacts steps' = some other) :
    other.facts = result.facts ∧ other.issues.Perm result.issues := by
  have hnodup : (function.blocks.map Block.id).Nodup := by
    rw [← map_id_controlFlowFor]
    exact (issues_eq_nil.mp hvalid).1
  have hsame := h.sameEdges hnodup
  have hvalid' := h.valid hvalid
  rw [analyze, analyzeWith, Option.map_eq_some_iff] at hresult hother
  rw [h.catalog, h.1, h.2.1, h.actionsOf hnodup] at hother
  obtain ⟨facts, hfacts, rfl⟩ := hresult
  obtain ⟨facts', hfacts', rfl⟩ := hother
  have hleast := computeFixedPoint_isLeast (controlFlowFor function) hfacts
  have hleast' := computeFixedPoint_isLeast (controlFlowFor relisted) (h.1.symm ▸ hfacts')
  rw [hsame.entry, h.1] at hleast'
  -- the equations are the same, their order is not
  have hfactsEq : facts' = facts :=
    (hleast'.congr (evaluate_congr hsame.flowFact_eq).symm fun id =>
      (hsame.preorder_perm.mem_iff (a := id)).symm).unique hleast
  subst hfactsEq
  constructor
  · show (if materializeFacts then buildFacts _ facts' else []) = if _ then buildFacts _ facts' else []
    unfold buildFacts
    rw [hsame.facts_eq]
  · show List.Perm (_ ++ _ ++ _) (_ ++ _ ++ _)
    rw [hvalid, hvalid']
    exact List.Perm.append_left _ (hsame.preorder_perm.flatMap_right _)

/-- **The blocks of a function may be listed in any order.** -/
theorem analyze_perm (h : function.blocks.Perm blocks)
    (hvalid : (analyzeControlFlow (controlFlowFor function)).issues = []) (materializeFacts : Bool)
    (steps : Nat) :
    analyze { function with blocks := blocks } materializeFacts steps
      = analyze function materializeFacts steps := by
  have hnodup : (function.blocks.map Block.id).Nodup := by
    rw [← map_id_controlFlowFor]
    exact (issues_eq_nil.mp hvalid).1
  have hrelists := relists_perm h
  have hflow : analyzeControlFlow (controlFlowFor { function with blocks := blocks })
      = analyzeControlFlow (controlFlowFor function) :=
    analyzeControlFlow_perm (h.map _) hvalid
  unfold analyze
  rw [hflow, hrelists.catalog, hrelists.actionsOf hnodup]

end Relisting

/-! ## The analysis -/

/-- **Ownership flow is a sound may-analysis.** For a valid graph the analysis ends with one result. Its
masks contain the states of every path whose returns to the entry find the handles as a caller could
have supplied them; without issues no such path requires a handle that is consumed or of another kind,
nor one that is missing while some path brings it; and the listing of blocks and edges is immaterial. -/
theorem analyze_sound (function : Function)
    (hvalid : (analyzeControlFlow (controlFlowFor function)).issues = []) :
    ∃ result, (∃ enough, ∀ steps ≥ enough, analyze function true steps = some result) ∧
      MasksAdmit function function.Enters result ∧
      (result.issues = [] → SafeUses function function.Enters) ∧
      (∀ blocks, function.blocks.Perm blocks → ∀ steps,
        analyze { function with blocks := blocks } true steps = analyze function true steps) ∧
      ∀ relisted, Relists function relisted → ∀ steps other, analyze relisted true steps = some other →
        other.facts = result.facts ∧ other.issues.Perm result.issues := by
  obtain ⟨enough, hended⟩ := computeFixedPoint_isSome (controlFlowFor function) function.actionsOf
    (initialState (buildHandleCatalog function) function.entry function.initialHandles).1
  obtain ⟨facts, hfacts⟩ := hended enough (le_refl enough)
  have hleast := computeFixedPoint_isLeast (controlFlowFor function) hfacts
  have hresult : ∀ steps ≥ enough, analyze function true steps
      = some (resultOf function true facts) := by
    intro steps hsteps
    obtain ⟨facts', hfacts'⟩ := hended steps hsteps
    have hsame := (computeFixedPoint_isLeast (controlFlowFor function) hfacts').unique hleast
    rw [hsame] at hfacts'
    show (computeFixedPoint _ _ _ _ steps).map _ = _
    rw [show computeFixedPoint function.entry _ _ _ steps = some facts from hfacts']
    rfl
  refine ⟨resultOf function true facts, ⟨enough, hresult⟩, resultOf_masksAdmit hvalid hfacts,
    resultOf_safeUses hvalid hfacts, ?_, ?_⟩
  · exact fun blocks hperm steps => analyze_perm hperm hvalid true steps
  · exact fun relisted hrelists steps other hother =>
      analyze_relisted hrelists hvalid (hresult enough (le_refl enough)) hother

/-- A loop that observes a handle of the caller on every iteration. -/
def liveLoop : Function where
  entry := 0
  initialHandles := [⟨1, .strong⟩]
  blocks := [⟨0, [1], []⟩, ⟨1, [1, 2], [⟨.observe, 1, .strong, 0, false⟩]⟩,
    ⟨2, [], [⟨.consume, 1, .strong, 0, true⟩]⟩]

theorem analyze_sound_liveLoop :
    ∃ result, (∃ enough, ∀ steps ≥ enough, analyze liveLoop true steps = some result) ∧
      MasksAdmit liveLoop liveLoop.Enters result ∧
      (result.issues = [] → SafeUses liveLoop liveLoop.Enters) := by
  have hvalid : (analyzeControlFlow (controlFlowFor liveLoop)).issues = [] := by decide
  obtain ⟨result, hended, hmasks, hsafe, _⟩ := analyze_sound liveLoop hvalid
  exact ⟨result, hended, hmasks, hsafe⟩

/-- An entry block that consumes a handle of the caller and branches back to itself. -/
def reentered : Function where
  entry := 0
  initialHandles := [⟨1, .strong⟩]
  blocks := [⟨0, [0], [⟨.consume, 1, .strong, 0, false⟩]⟩]

/-- A function that observes a handle nobody supplies. -/
def unsupplied : Function where
  entry := 0
  initialHandles := []
  blocks := [⟨0, [], [⟨.observe, 1, .strong, 0, false⟩]⟩]

/-- Every requirement on every path finds a live handle of its kind. -/
def RequirementsMet (function : Function) (returns : HandleStates → Prop) : Prop :=
  ∀ id states block before action after, function.Arrives returns id states →
    function.findBlock id = some block → block.actions = before ++ action :: after →
    (action.kind = .observe ∨ action.kind = .consume) →
    performAll before states action.handle = liveState action.expected

/-- Over unrestricted paths the masks are too small when the entry is entered again, and the second
consumption is not reported; nor is the use of a handle that is absent on every path. -/
theorem not_sound_reentered :
    (analyze reentered true 4 = some ⟨[⟨0, true, [⟨1, kStrong⟩], [⟨1, kConsumed⟩]⟩], []⟩ ∧
      ¬ MasksAdmit reentered (fun _ => True) ⟨[⟨0, true, [⟨1, kStrong⟩], [⟨1, kConsumed⟩]⟩], []⟩ ∧
      ¬ RequirementsMet reentered fun _ => True) ∧
    analyze unsupplied true 4 = some ⟨[⟨0, true, [⟨1, kAbsent⟩], [⟨1, kAbsent⟩]⟩], []⟩ ∧
      ¬ RequirementsMet unsupplied unsupplied.Enters := by
  have henters : reentered.Enters fun handle => if handle = 1 then .strong else .absent := by
    intro handle _
    by_cases h : handle = 1 <;> simp [reentered, h, liveState]
  -- once around the loop the handle is consumed
  have hagain : reentered.Arrives (fun _ => True) 0
      (performAll [⟨.consume, 1, .strong, 0, false⟩] fun handle => if handle = 1 then .strong else .absent) :=
    .step (.entry henters) rfl (by decide) fun _ => trivial
  refine ⟨⟨by decide, ?_, ?_⟩, by decide, ?_⟩
  · intro hmasks
    obtain ⟨record, hrecord, _, _, _, hfacts⟩ := hmasks 0 _ hagain
    rw [List.mem_singleton.mp hrecord] at hfacts
    exact absurd (hfacts ⟨1, kStrong⟩ List.mem_cons_self) (by decide)
  · intro hmet
    exact absurd (hmet 0 _ _ [] ⟨.consume, 1, .strong, 0, false⟩ [] hagain rfl rfl (Or.inr rfl))
      (by decide)
  · intro hmet
    have habsent : unsupplied.Enters fun _ => .absent := by
      intro handle _
      simp [unsupplied]
    exact absurd (hmet 0 _ _ [] ⟨.observe, 1, .strong, 0, false⟩ [] (.entry habsent) rfl rfl (Or.inl rfl))
      (by decide)

end Tala.Analysis.OwnershipFlow
