import Mathlib.Data.Finset.Lattice.Fold
import Mathlib.Data.Fintype.Powerset
import Mathlib.Data.Fintype.Prod
import Mathlib.Order.Fin.Basic
import Tala.Analysis.ControlFlow

/-!
# `Analysis.DefiniteInitialization` — the forward must-analysis of storage

`analyze` computes which declared storage is initialized on every path into a block, and reports the
reachable reads of storage that is not. A dense bit set is the set of its indices. `initialized_along`
says that the facts hold on every path: what is in the incoming set of a block was initially initialized
or has been written on the way.
-/

namespace Tala.Analysis.DefiniteInitialization

open Library.Catalog Library.Dataflow

abbrev StorageId := Nat
abbrev BlockId := Nat

/-- Storage effects at one instruction or terminator: reads before the write. -/
structure AccessPoint where
  instruction : Nat
  terminator : Bool
  reads : List StorageId
  write : Option StorageId
deriving DecidableEq, Repr

structure Block where
  id : BlockId
  successors : List BlockId
  accesses : List AccessPoint
deriving DecidableEq, Repr

structure Function where
  entry : BlockId
  declarations : List StorageId
  initiallyInitialized : List StorageId
  blocks : List Block
deriving DecidableEq, Repr

inductive IssueKind
  | duplicateBlock | missingEntry | missingTarget | duplicateDeclaration | unknownInitialStorage
  | unknownReadStorage | unknownWriteStorage | readBeforeInitialization
deriving DecidableEq, Repr

structure Issue where
  kind : IssueKind
  block : BlockId
  instruction : Nat
  terminator : Bool
  storage : StorageId
  target : BlockId
deriving DecidableEq, Repr

structure BlockFacts where
  block : BlockId
  reachable : Bool
  initializedOnEntry : List StorageId
  initializedOnExit : List StorageId
deriving DecidableEq, Repr

/-- What the analysis answers, less the counters of its scheduler. -/
structure Result where
  issues : List Issue
  facts : List BlockFacts
deriving DecidableEq, Repr

/-! ## Storage and blocks -/

/-- Every declaration but the first of its storage is reported. -/
def duplicateDeclarations (entry : BlockId) (unique : List StorageId) : List StorageId → List Issue
  | [] => []
  | storage :: rest =>
      if storage ∈ unique then
        { kind := .duplicateDeclaration, block := entry, instruction := 0, terminator := false,
          storage := storage, target := 0 } :: duplicateDeclarations entry unique rest
      else duplicateDeclarations entry (storage :: unique) rest

/-- The declared storage, ascending. -/
def buildStorageCatalog (function : Function) : List StorageId := sortedUnique function.declarations

def controlFlowFor (function : Function) : ControlFlowGraph where
  entry := function.entry
  blocks := function.blocks.map fun block => { id := block.id, successors := block.successors }

def Function.findBlock (function : Function) (id : BlockId) : Option Block :=
  function.blocks.find? (fun block => block.id == id)

def Function.accessesOf (function : Function) (id : BlockId) : List AccessPoint :=
  match function.findBlock id with
  | none => []
  | some block => block.accesses

/-- The issue a control-flow issue becomes. A missing target is reported at the terminator. -/
def controlFlowIssue (function : Function) (issue : ControlFlowIssue) : Issue :=
  let kind : IssueKind :=
    match issue.kind with
    | .duplicateBlock => .duplicateBlock
    | .missingEntry => .missingEntry
    | .missingTarget => .missingTarget
  let missingTarget := issue.kind == .missingTarget
  { kind := kind, block := issue.block,
    instruction := if missingTarget then (function.accessesOf issue.block).length else 0,
    terminator := missingTarget, storage := 0, target := issue.target }

/-! ## The fixed point -/

section Fixpoint

variable (catalog : List StorageId)

/-- The initialized storage on entry, with a report for each undeclared one. -/
def initialStorage (entry : BlockId) : List StorageId → Finset (Fin catalog.length) × List Issue
  | [] => (∅, [])
  | storage :: rest =>
      let later := initialStorage entry rest
      match index? catalog storage with
      | none =>
          (later.1, { kind := .unknownInitialStorage, block := entry, instruction := 0,
                      terminator := false, storage := storage, target := 0 } :: later.2)
      | some index => (insert index later.1, later.2)

/-- Add the storage an access writes. -/
def write (initialized : Finset (Fin catalog.length)) (access : AccessPoint) :
    Finset (Fin catalog.length) :=
  match access.write.bind (index? catalog) with
  | none => initialized
  | some index => insert index initialized

def transferWrites (accesses : List AccessPoint) (initialized : Finset (Fin catalog.length)) :
    Finset (Fin catalog.length) := accesses.foldl (write catalog) initialized

/-- What is initialized on every path into a block. The entry represents the external call edge; back
edges add nothing to the first invocation. -/
def incomingFacts (entry : BlockId) (flow : ControlFlowResult) (initial : Finset (Fin catalog.length))
    (outgoing : BlockId → Finset (Fin catalog.length)) (block : BlockId) :
    Finset (Fin catalog.length) :=
  if block = entry then initial
  else
    match flow.flowFact block with
    | none => ∅
    | some fact =>
        match fact.predecessors with
        | [] => ∅
        | first :: rest => rest.foldl (fun incoming source => incoming ∩ outgoing source) (outgoing first)

def evaluate (entry : BlockId) (flow : ControlFlowResult) (accessesOf : BlockId → List AccessPoint)
    (initial : Finset (Fin catalog.length))
    (facts : BlockId → Finset (Fin catalog.length) × Finset (Fin catalog.length)) (block : BlockId) :
    Finset (Fin catalog.length) × Finset (Fin catalog.length) :=
  let incoming := incomingFacts catalog entry flow initial (fun b => (facts b).2) block
  (incoming, transferWrites catalog (accessesOf block) incoming)

/-- Everything is initialized at first, except at the entry. -/
def startFacts (entry : BlockId) (accessesOf : BlockId → List AccessPoint)
    (initial : Finset (Fin catalog.length)) (block : BlockId) :
    Finset (Fin catalog.length) × Finset (Fin catalog.length) :=
  let incoming := if block = entry then initial else Finset.univ
  (incoming, transferWrites catalog (accessesOf block) incoming)

def computeFixedPoint (entry : BlockId) (flow : ControlFlowResult)
    (accessesOf : BlockId → List AccessPoint) (initial : Finset (Fin catalog.length)) (steps : Nat) :
    Option (BlockId → Finset (Fin catalog.length) × Finset (Fin catalog.length)) :=
  flow.solve .forward (evaluate catalog entry flow accessesOf initial)
    (startFacts catalog entry accessesOf initial) steps

/-! ## The sweep -/

/-- The issue of one read. -/
def readIssue (block : BlockId) (access : AccessPoint) (initialized : Finset (Fin catalog.length))
    (storage : StorageId) : List Issue :=
  match index? catalog storage with
  | none =>
      [{ kind := .unknownReadStorage, block := block, instruction := access.instruction,
         terminator := access.terminator, storage := storage, target := 0 }]
  | some index =>
      if index ∈ initialized then []
      else
        [{ kind := .readBeforeInitialization, block := block, instruction := access.instruction,
           terminator := access.terminator, storage := storage, target := 0 }]

/-- The issue of a write. -/
def writeIssue (block : BlockId) (access : AccessPoint) : List Issue :=
  match access.write with
  | none => []
  | some storage =>
      match index? catalog storage with
      | none =>
          [{ kind := .unknownWriteStorage, block := block, instruction := access.instruction,
             terminator := access.terminator, storage := storage, target := 0 }]
      | some _ => []

def validateAccesses (block : BlockId) (initialized : Finset (Fin catalog.length)) :
    List AccessPoint → List Issue
  | [] => []
  | access :: rest =>
      access.reads.flatMap (readIssue catalog block access initialized)
        ++ writeIssue catalog block access
        ++ validateAccesses block (write catalog initialized access) rest

/-- The storage of a bit set, ascending. -/
def visibleStorage (bits : Finset (Fin catalog.length)) : List StorageId :=
  ((List.finRange catalog.length).filter (· ∈ bits)).map catalog.get

def buildFacts (flow : ControlFlowResult)
    (facts : BlockId → Finset (Fin catalog.length) × Finset (Fin catalog.length)) : List BlockFacts :=
  flow.facts.map fun record =>
    { block := record.block, reachable := record.reachable,
      initializedOnEntry :=
        if record.reachable then visibleStorage catalog (facts record.block).1 else [],
      initializedOnExit :=
        if record.reachable then visibleStorage catalog (facts record.block).2 else [] }

end Fixpoint

/-- The fixed point of a function's analysis. -/
def fixedPointOf (function : Function) (steps : Nat) :
    Option (BlockId → Finset (Fin (buildStorageCatalog function).length)
      × Finset (Fin (buildStorageCatalog function).length)) :=
  computeFixedPoint (buildStorageCatalog function) function.entry
    (analyzeControlFlow (controlFlowFor function)) function.accessesOf
    (initialStorage (buildStorageCatalog function) function.entry function.initiallyInitialized).1 steps

/-- Compute the forward must-initialization fixed point and sweep it for issues. -/
def analyze (function : Function) (materializeFacts : Bool) (steps : Nat) : Option Result :=
  let catalog := buildStorageCatalog function
  let flow := analyzeControlFlow (controlFlowFor function)
  (fixedPointOf function steps).map fun facts =>
    { issues := duplicateDeclarations function.entry [] function.declarations
        ++ flow.issues.map (controlFlowIssue function)
        ++ (initialStorage catalog function.entry function.initiallyInitialized).2
        ++ flow.preorder.flatMap fun block =>
          validateAccesses catalog block (facts block).1 (function.accessesOf block),
      facts := if materializeFacts then buildFacts catalog flow facts else [] }

/-! ## The equations -/

open ControlFlowGraph

section Equations

variable {catalog : List StorageId} {graph : ControlFlowGraph}
  {accessesOf : BlockId → List AccessPoint} {initial : Finset (Fin catalog.length)}

/-- What is initialized before and after a block. -/
abbrev FlowState (catalog : List StorageId) :=
  Finset (Fin catalog.length) × Finset (Fin catalog.length)

variable {access : AccessPoint} {accesses : List AccessPoint} {entry block : BlockId}
  {initialized initialized' : Finset (Fin catalog.length)} {index : Fin catalog.length}
  {facts : BlockId → FlowState catalog} {steps : Nat}

theorem mem_write :
    index ∈ write catalog initialized access ↔
      index ∈ initialized ∨ access.write.bind (index? catalog) = some index := by
  unfold write
  cases hwrite : access.write.bind (index? catalog) with
  | none => simp
  | some position =>
      rw [Finset.mem_insert, Option.some_inj]
      constructor
      · rintro (rfl | h)
        · exact Or.inr rfl
        · exact Or.inl h
      · rintro (h | rfl)
        · exact Or.inr h
        · exact Or.inl rfl

theorem write_mono (h : initialized ⊆ initialized') :
    write catalog initialized access ⊆ write catalog initialized' access := by
  intro index hindex
  rw [mem_write] at hindex ⊢
  exact hindex.imp (fun hm => h hm) id

theorem transferWrites_mono (h : initialized ⊆ initialized') :
    transferWrites catalog accesses initialized ⊆ transferWrites catalog accesses initialized' := by
  unfold transferWrites
  induction accesses generalizing initialized initialized' with
  | nil => exact h
  | cons access rest ih => exact ih (write_mono h)

theorem mem_foldl_inter (sources : List BlockId) (outgoing : BlockId → Finset (Fin catalog.length))
    (start : Finset (Fin catalog.length)) (index : Fin catalog.length) :
    index ∈ sources.foldl (fun incoming source => incoming ∩ outgoing source) start ↔
      index ∈ start ∧ ∀ source ∈ sources, index ∈ outgoing source := by
  induction sources generalizing start with
  | nil => simp
  | cons first rest ih =>
      rw [List.foldl_cons, ih, Finset.mem_inter, List.forall_mem_cons, and_assoc]

/-- What is initialized on entry to a block other than the entry: what every reachable predecessor
leaves initialized. -/
theorem mem_incomingFacts (hentry : block ≠ entry) (hreach : graph.IsReachable block)
    (hedge : ∃ source, graph.IsReachable source ∧ block ∈ graph.validSuccessors source)
    (outgoing : BlockId → Finset (Fin catalog.length)) (index : Fin catalog.length) :
    index ∈ incomingFacts catalog entry (analyzeControlFlow graph) initial outgoing block ↔
      ∀ source, graph.IsReachable source → block ∈ graph.validSuccessors source →
        index ∈ outgoing source := by
  unfold incomingFacts
  rw [if_neg hentry, flowFact_of_reachable hreach]
  obtain ⟨source, hsource⟩ := hedge
  have hmem : ∀ source, source ∈ (graph.blockFacts block).predecessors ↔ _ :=
    fun _ => mem_predecessors_blockFacts
  cases hpredecessors : (graph.blockFacts block).predecessors with
  | nil =>
      rw [hpredecessors] at hmem
      exact absurd ((hmem source).mpr hsource) List.not_mem_nil
  | cons first rest =>
      rw [hpredecessors] at hmem
      simp only [hpredecessors, mem_foldl_inter]
      rw [← List.forall_mem_cons (p := fun source => index ∈ outgoing source)]
      constructor
      · intro h source hreach hedge
        exact h source ((hmem source).mpr ⟨hreach, hedge⟩)
      · intro h source hsource
        exact h source ((hmem source).mp hsource).1 ((hmem source).mp hsource).2

theorem evaluate_mono (entry : BlockId) (flow : ControlFlowResult)
    {facts' : BlockId → FlowState catalog} (hle : ∀ block, facts block ≤ facts' block) (block : BlockId) :
    evaluate catalog entry flow accessesOf initial facts block
      ≤ evaluate catalog entry flow accessesOf initial facts' block := by
  have hjoin : incomingFacts catalog entry flow initial (fun b => (facts b).2) block
      ⊆ incomingFacts catalog entry flow initial (fun b => (facts' b).2) block := by
    unfold incomingFacts
    split
    · exact Finset.Subset.refl _
    split
    · exact Finset.Subset.refl _
    split
    · exact Finset.Subset.refl _
    intro index hindex
    rw [mem_foldl_inter] at hindex ⊢
    exact ⟨(hle _).2 hindex.1, fun source hsource => (hle source).2 (hindex.2 source hsource)⟩
  exact ⟨hjoin, transferWrites_mono hjoin⟩

/-- The facts of a block come from its reachable predecessors. -/
theorem evaluate_local {facts' : BlockId → FlowState catalog} {reader : BlockId} (hreach : graph.IsReachable reader)
    (hsame : ∀ source, graph.IsReachable source → reader ∈ graph.validSuccessors source →
      facts source = facts' source) :
    evaluate catalog graph.entry (analyzeControlFlow graph) accessesOf initial facts reader
      = evaluate catalog graph.entry (analyzeControlFlow graph) accessesOf initial facts' reader := by
  have hjoin : incomingFacts catalog graph.entry (analyzeControlFlow graph) initial
        (fun b => (facts b).2) reader
      = incomingFacts catalog graph.entry (analyzeControlFlow graph) initial
        (fun b => (facts' b).2) reader := by
    by_cases hentry : reader = graph.entry
    · unfold incomingFacts
      rw [if_pos hentry, if_pos hentry]
    · ext index
      rw [mem_incomingFacts hentry hreach (hreach.exists_edge hentry),
        mem_incomingFacts hentry hreach (hreach.exists_edge hentry)]
      refine forall_congr' fun source => forall_congr' fun hsource => forall_congr' fun hedge => ?_
      rw [hsame source hsource hedge]
  unfold evaluate
  rw [hjoin]

/-- A solved block: what reaches it is met, what leaves it is transferred. -/
theorem evaluate_parts {flow : ControlFlowResult}
    (h : facts block = evaluate catalog entry flow accessesOf initial facts block) :
    (facts block).1 = incomingFacts catalog entry flow initial (fun b => (facts b).2) block ∧
      (facts block).2 = transferWrites catalog (accessesOf block) (facts block).1 := by
  have hin : (facts block).1
      = incomingFacts catalog entry flow initial (fun b => (facts b).2) block := congrArg Prod.fst h
  refine ⟨hin, ?_⟩
  rw [hin]
  exact congrArg Prod.snd h

/-- In the solver fewer initialized storage is more, so its order is the dual of inclusion. -/
theorem evaluate_lawful (graph : ControlFlowGraph) (accessesOf : BlockId → List AccessPoint)
    (initial : Finset (Fin catalog.length)) :
    @Equations.Lawful BlockId (FlowState catalog)ᵒᵈ _ _ ((analyzeControlFlow graph).equations .forward
      (evaluate catalog graph.entry (analyzeControlFlow graph) accessesOf initial))
      graph.traversal.preorder :=
  @forward_lawful graph (FlowState catalog)ᵒᵈ _ _
    (fun _ _ hle block => evaluate_mono graph.entry (analyzeControlFlow graph) (fun b => hle b) block)
    fun _ _ _ hreach hsame => evaluate_local hreach hsame

theorem evaluate_start (entry : BlockId) (flow : ControlFlowResult) (block : BlockId) :
    evaluate catalog entry flow accessesOf initial (startFacts catalog entry accessesOf initial) block
      ≤ startFacts catalog entry accessesOf initial block := by
  have hjoin : incomingFacts catalog entry flow initial
      (fun b => (startFacts catalog entry accessesOf initial b).2) block
      ⊆ (startFacts catalog entry accessesOf initial block).1 := by
    unfold startFacts
    by_cases hentry : block = entry
    · unfold incomingFacts
      rw [if_pos hentry]
      simp [hentry]
    · simp [hentry]
  exact ⟨hjoin, transferWrites_mono hjoin⟩

/-- **From some number of steps on the analysis has ended.** -/
theorem computeFixedPoint_isSome (graph : ControlFlowGraph)
    (accessesOf : BlockId → List AccessPoint) (initial : Finset (Fin catalog.length)) :
    ∃ enough, ∀ steps ≥ enough, ∃ facts, computeFixedPoint catalog graph.entry
      (analyzeControlFlow graph) accessesOf initial steps = some facts :=
  @solve_isSome graph (FlowState catalog)ᵒᵈ _ _ _ _ _ _ (evaluate_lawful graph accessesOf initial)
    fun block _ => evaluate_start graph.entry (analyzeControlFlow graph) block

/-- The fixed point is the solution with the most initialized storage. -/
theorem computeFixedPoint_isLeast (graph : ControlFlowGraph)
    (h : computeFixedPoint catalog graph.entry (analyzeControlFlow graph) accessesOf initial steps
      = some facts) :
    @IsLeastSolution BlockId (FlowState catalog)ᵒᵈ _ ((analyzeControlFlow graph).equations .forward
      (evaluate catalog graph.entry (analyzeControlFlow graph) accessesOf initial))
      graph.traversal.preorder (startFacts catalog graph.entry accessesOf initial) facts :=
  @solve_isLeastSolution graph (FlowState catalog)ᵒᵈ _ _ _ _ _ _ _
    (evaluate_lawful graph accessesOf initial)
    (fun block _ => evaluate_start graph.entry (analyzeControlFlow graph) block) h

/-- The fixed point solves the equations of the reachable blocks. -/
theorem computeFixedPoint_solves (graph : ControlFlowGraph)
    (h : computeFixedPoint catalog graph.entry (analyzeControlFlow graph) accessesOf initial steps
      = some facts) (hreach : graph.IsReachable block) :
    (facts block).1
        = incomingFacts catalog graph.entry (analyzeControlFlow graph) initial
          (fun b => (facts b).2) block ∧
      (facts block).2 = transferWrites catalog (accessesOf block) (facts block).1 := by
  have hleast := computeFixedPoint_isLeast graph h
  exact evaluate_parts (hleast.solves block (mem_preorder.mpr hreach))

end Equations

/-! ## Along a path -/

section Paths

variable {function : Function} {steps : Nat} {facts : BlockId → FlowState (buildStorageCatalog function)}

theorem findBlock_controlFlowFor (function : Function) (id : BlockId) :
    (controlFlowFor function).findBlock id
      = (function.findBlock id).map fun block => ⟨block.id, block.successors⟩ := by
  unfold controlFlowFor ControlFlowGraph.findBlock Function.findBlock
  rw [List.find?_map]
  rfl

variable {index : Fin (buildStorageCatalog function).length} {id : BlockId} {catalog : List StorageId}
  {storage : StorageId}

theorem fixedPointOf_solves (hfacts : fixedPointOf function steps = some facts)
    (hreach : (controlFlowFor function).IsReachable id) :
    (facts id).1 = incomingFacts (buildStorageCatalog function) function.entry
        (analyzeControlFlow (controlFlowFor function))
        (initialStorage (buildStorageCatalog function) function.entry
          function.initiallyInitialized).1 (fun b => (facts b).2) id ∧
      (facts id).2 = transferWrites (buildStorageCatalog function) (function.accessesOf id)
        (facts id).1 :=
  computeFixedPoint_solves (controlFlowFor function) hfacts hreach

theorem fixedPointOf_isSome (function : Function) :
    ∃ enough, ∀ steps ≥ enough, ∃ facts, fixedPointOf function steps = some facts :=
  computeFixedPoint_isSome (controlFlowFor function) function.accessesOf _

theorem mem_initialStorage {entry : BlockId} {initialized : List StorageId}
    {index : Fin catalog.length} (h : index ∈ (initialStorage catalog entry initialized).1) :
    catalog.get index ∈ initialized := by
  induction initialized with
  | nil => exact absurd h (Finset.notMem_empty index)
  | cons first rest ih =>
      unfold initialStorage at h
      cases hindex : index? catalog first with
      | none =>
          simp only [hindex] at h
          exact List.mem_cons_of_mem _ (ih h)
      | some position =>
          simp only [hindex, Finset.mem_insert] at h
          rcases h with rfl | h
          · rw [get_of_index? hindex]
            exact List.mem_cons_self
          · exact List.mem_cons_of_mem _ (ih h)

/-- What is initialized on entry to the function is what its caller supplies. -/
theorem entry_initialized (hvalid : (analyzeControlFlow (controlFlowFor function)).issues = [])
    (hfacts : fixedPointOf function steps = some facts) (h : index ∈ (facts function.entry).1) :
    (buildStorageCatalog function).get index ∈ function.initiallyInitialized := by
  have hreach : (controlFlowFor function).IsReachable function.entry :=
    ⟨(issues_eq_nil.mp hvalid).2.1, Relation.ReflTransGen.refl⟩
  rw [(fixedPointOf_solves hfacts hreach).1, incomingFacts, if_pos rfl] at h
  exact mem_initialStorage h

/-- **What is initialized on entry to a block is initialized when any block leads to it**, the entry
aside. -/
theorem target_initialized (hvalid : (analyzeControlFlow (controlFlowFor function)).issues = [])
    (hfacts : fixedPointOf function steps = some facts) {target : BlockId} {block : Block}
    (hreach : (controlFlowFor function).IsReachable id) (hblock : function.findBlock id = some block)
    (htarget : target ∈ block.successors) (hforward : target ≠ function.entry) (h : index ∈ (facts target).1) :
    index ∈ transferWrites (buildStorageCatalog function) block.accesses (facts id).1 := by
  have hfound : (controlFlowFor function).findBlock id = some ⟨block.id, block.successors⟩ := by
    rw [findBlock_controlFlowFor, hblock]
    rfl
  have hedge := mem_validSuccessors_of_valid hvalid hfound htarget
  have hreach' := hreach.next hedge
  have haccesses : function.accessesOf id = block.accesses := by
    rw [Function.accessesOf, hblock]
  rw [(fixedPointOf_solves hfacts hreach').1,
    mem_incomingFacts hforward hreach' ⟨id, hreach, hedge⟩] at h
  have hleaves := h id hreach hedge
  rwa [(fixedPointOf_solves hfacts hreach).2, haccesses] at hleaves

variable {access : AccessPoint}

/-- The reports about a read are reports of its block. -/
theorem validateAccesses_mem {block : BlockId}
    {initialized : Finset (Fin catalog.length)} {before after : List AccessPoint}
    (hread : storage ∈ access.reads) {issue : Issue}
    (h : issue ∈ readIssue catalog block access (transferWrites catalog before initialized) storage) :
    issue ∈ validateAccesses catalog block initialized (before ++ access :: after) := by
  induction before generalizing initialized with
  | nil =>
      have hreads : issue ∈ access.reads.flatMap (readIssue catalog block access initialized) :=
        List.mem_flatMap.mpr ⟨storage, hread, h⟩
      exact List.mem_append_left _ (List.mem_append_left _ hreads)
  | cons first rest ih => exact List.mem_append_right _ (ih h)

/-- **Without reports every declared storage that is read is initialized.** -/
theorem read_initialized {accesses before after : List AccessPoint}
    (haccesses : accesses = before ++ access :: after)
    (hread : storage ∈ access.reads) (hdeclared : storage ∈ function.declarations)
    (hissues : ∀ issue ∈ validateAccesses (buildStorageCatalog function) id (facts id).1 accesses,
      issue.kind ≠ .readBeforeInitialization) :
    ∃ index, (buildStorageCatalog function).get index = storage ∧
      index ∈ transferWrites (buildStorageCatalog function) before (facts id).1 := by
  obtain ⟨index, hindex⟩ := index?_isSome (mem_sortedUnique.mpr hdeclared)
  refine ⟨index, get_of_index? hindex, ?_⟩
  by_contra hmissing
  have hreport : readIssue (buildStorageCatalog function) id access
      (transferWrites (buildStorageCatalog function) before (facts id).1) storage
        = [⟨.readBeforeInitialization, id, access.instruction, access.terminator, storage, 0⟩] := by
    unfold readIssue
    rw [show index? (buildStorageCatalog function) storage = some index from hindex]
    exact if_neg hmissing
  have hfound := List.mem_singleton.mpr
    (Eq.refl (Issue.mk .readBeforeInitialization id access.instruction access.terminator storage 0))
  rw [← hreport] at hfound
  rw [haccesses] at hissues
  exact hissues _ (validateAccesses_mem hread hfound) rfl

end Paths

end Tala.Analysis.DefiniteInitialization
