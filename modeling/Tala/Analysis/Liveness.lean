import Mathlib.Data.Finset.Lattice.Fold
import Mathlib.Data.Fintype.Powerset
import Mathlib.Data.Fintype.Prod
import Mathlib.Order.Fin.Basic
import Tala.Analysis.ControlFlow

/-!
# `Analysis.Liveness` — the backward analysis of storage, and which writes it removes

`analyze` computes which storage is live before and after each block. A removable write whose destination
is dead counts for nothing, its reads included, so that dead producers of dead values go in one pass. A
dense bit set is the set of its indices.

The live sets are those of strong liveness: a storage is live where a path carries it unwritten to a read of
an access that is itself needed. Leaving out all accesses that are not retained changes nothing that the
others read (`liveness_exact`).
-/

namespace Tala.Analysis.Liveness

open Library.Catalog Library.Dataflow

abbrev StorageId := Nat
abbrev BlockId := Nat

/-- Storage effects of an instruction or terminator: reads before the write. -/
structure Access where
  instruction : Nat
  terminator : Bool
  reads : List StorageId
  write : Option StorageId
  /-- Whether the write may be left out when nothing needs it. -/
  removable : Bool
deriving DecidableEq, Repr

structure Block where
  id : BlockId
  successors : List BlockId
  accesses : List Access
deriving DecidableEq, Repr

structure Function where
  entry : BlockId
  blocks : List Block
deriving DecidableEq, Repr

structure AccessFacts where
  instruction : Nat
  terminator : Bool
  retained : Bool
  liveBefore : List StorageId
  liveAfter : List StorageId
deriving DecidableEq, Repr

structure BlockFacts where
  block : BlockId
  reachable : Bool
  liveOnEntry : List StorageId
  liveOnExit : List StorageId
  accesses : List AccessFacts
deriving DecidableEq, Repr

/-- What the analysis answers, less the counters of its scheduler. -/
structure Result where
  issues : List ControlFlowIssue
  facts : List BlockFacts
deriving DecidableEq, Repr

/-! ## Storage and blocks -/

def storageOf (access : Access) : List StorageId := access.reads ++ access.write.toList

/-- All storage that is read or written, ascending. -/
def buildStorageCatalog (function : Function) : List StorageId :=
  sortedUnique (function.blocks.flatMap fun block => block.accesses.flatMap storageOf)

def controlFlowFor (function : Function) : ControlFlowGraph where
  entry := function.entry
  blocks := function.blocks.map fun block => { id := block.id, successors := block.successors }

def Function.findBlock (function : Function) (id : BlockId) : Option Block :=
  function.blocks.find? (fun block => block.id == id)

def Function.accessesOf (function : Function) (id : BlockId) : List Access :=
  match function.findBlock id with
  | none => []
  | some block => block.accesses

/-! ## The fixed point -/

section Fixpoint

variable (catalog : List StorageId)

/-- The storage of a bit set, ascending. -/
def visible (bits : Finset (Fin catalog.length)) : List StorageId :=
  ((List.finRange catalog.length).filter (· ∈ bits)).map catalog.get

def setRead (live : Finset (Fin catalog.length)) (read : StorageId) : Finset (Fin catalog.length) :=
  match index? catalog read with
  | none => live
  | some index => insert index live

/-- A write that may be removed, of storage that is dead after it. -/
def isDead (access : Access) (live : Finset (Fin catalog.length)) : Bool :=
  match access.write.bind (index? catalog) with
  | none => false
  | some destination => access.removable && destination ∉ live

def apply (access : Access) (live : Finset (Fin catalog.length)) : Finset (Fin catalog.length) :=
  if isDead catalog access live then live
  else
    match access.write.bind (index? catalog) with
    | none => access.reads.foldl (setRead catalog) live
    | some destination => access.reads.foldl (setRead catalog) (live.erase destination)

def transfer (accesses : List Access) (live : Finset (Fin catalog.length)) :
    Finset (Fin catalog.length) := accesses.foldr (apply catalog) live

/-- What is live after a block: what is live before one of its successors. -/
def exitFacts (flow : ControlFlowResult) (incoming : BlockId → Finset (Fin catalog.length))
    (block : BlockId) : Finset (Fin catalog.length) :=
  match flow.flowFact block with
  | none => ∅
  | some facts =>
      facts.successors.foldl
        (fun live next => if next ∈ flow.preorder then live ∪ incoming next else live) ∅

/-- The live sets before and after a block. -/
abbrev FlowState := Finset (Fin catalog.length) × Finset (Fin catalog.length)

def evaluate (flow : ControlFlowResult) (accessesOf : BlockId → List Access)
    (facts : BlockId → FlowState catalog) (block : BlockId) : FlowState catalog :=
  let outgoing := exitFacts catalog flow (fun b => (facts b).1) block
  (transfer catalog (accessesOf block) outgoing, outgoing)

def computeFixedPoint (flow : ControlFlowResult) (accessesOf : BlockId → List Access) (steps : Nat) :
    Option (BlockId → FlowState catalog) :=
  flow.solve .backward (evaluate catalog flow accessesOf) (fun _ => (∅, ∅)) steps

/-! ## The facts -/

/-- The facts of the accesses of a block from what is live after it, with what is live before them. -/
def buildAccessFacts (materializeLiveSets : Bool) (live : Finset (Fin catalog.length)) :
    List Access → List AccessFacts × Finset (Fin catalog.length)
  | [] => ([], live)
  | access :: rest =>
      let later := buildAccessFacts materializeLiveSets live rest
      let retained := !isDead catalog access later.2
      let before := if retained then apply catalog access later.2 else later.2
      ({ instruction := access.instruction, terminator := access.terminator, retained := retained,
         liveBefore := if materializeLiveSets then visible catalog before else [],
         liveAfter := if materializeLiveSets then visible catalog later.2 else [] } :: later.1, before)

/-- The facts of one block; nothing is removed from a block that is not reachable. -/
def buildBlockFacts (flow : ControlFlowResult) (facts : BlockId → FlowState catalog)
    (materializeLiveSets : Bool) (block : BlockId) (accesses : List Access) : BlockFacts :=
  if block ∈ flow.preorder then
    { block := block, reachable := true,
      liveOnEntry := if materializeLiveSets then visible catalog (facts block).1 else [],
      liveOnExit := if materializeLiveSets then visible catalog (facts block).2 else [],
      accesses := (buildAccessFacts catalog materializeLiveSets (facts block).2 accesses).1 }
  else
    { block := block, reachable := false, liveOnEntry := [], liveOnExit := [],
      accesses := accesses.map fun access => ⟨access.instruction, access.terminator, true, [], []⟩ }

end Fixpoint

/-- The fixed point of a function's analysis. -/
def fixedPointOf (function : Function) (steps : Nat) :
    Option (BlockId → FlowState (buildStorageCatalog function)) :=
  computeFixedPoint (buildStorageCatalog function) (analyzeControlFlow (controlFlowFor function))
    function.accessesOf steps

/-- The first record of each identity has facts, ascending. -/
def buildFacts (function : Function) (facts : BlockId → FlowState (buildStorageCatalog function))
    (materializeLiveSets : Bool) : List BlockFacts :=
  (sortedUnique (function.blocks.map Block.id)).map fun block =>
    buildBlockFacts (buildStorageCatalog function) (analyzeControlFlow (controlFlowFor function)) facts
      materializeLiveSets block (function.accessesOf block)

def analyze (function : Function) (materializeLiveSets : Bool) (steps : Nat) : Option Result :=
  (fixedPointOf function steps).map fun facts =>
    { issues := (analyzeControlFlow (controlFlowFor function)).issues,
      facts := buildFacts function facts materializeLiveSets }

/-- Whether an access is to be kept, by its block and position. -/
def Result.retainedAt (result : Result) (block : BlockId) (position : Nat) : Bool :=
  match result.facts.find? (fun facts => facts.block == block) with
  | none => true
  | some facts =>
      match facts.accesses[position]? with
      | none => true
      | some access => access.retained

/-! ## Strong liveness -/

section Liveness

variable {function : Function} {storage : StorageId}

/-- A place between accesses of a block. -/
structure Point where
  block : BlockId
  position : Nat
deriving DecidableEq, Repr

def Point.next (point : Point) : Point := { point with position := point.position + 1 }

/-- The start of a block. -/
def Point.start (block : BlockId) : Point := ⟨block, 0⟩

/-- The access that runs next. -/
def Function.accessAt (function : Function) (point : Point) : Option Access :=
  (function.accessesOf point.block)[point.position]?

/-- The end of a block, after its last access. -/
def Function.endOf (function : Function) (block : BlockId) : Point :=
  ⟨block, (function.accessesOf block).length⟩

/-- One step of a path: past an access, or along an edge. -/
inductive Follows (function : Function) : Point → Point → Prop
  | access {point : Point} {access : Access} (h : function.accessAt point = some access) :
      Follows function point point.next
  | edge {block next : BlockId} (h : next ∈ (controlFlowFor function).validSuccessors block) :
      Follows function (function.endOf block) (Point.start next)

/-- A path on which nothing before its end writes the storage. -/
inductive Carries (function : Function) (storage : StorageId) : Point → Point → Prop
  | here (point : Point) : Carries function storage point point
  | step {point next last : Point} (hfollows : Follows function point next)
      (hkept : ∀ access, function.accessAt point = some access → access.write ≠ some storage)
      (hrest : Carries function storage next last) : Carries function storage point last

/-- An access whose write may not be left out, or carries to a read of a needed access. The relation is the
least one, so that accesses that only need each other are not needed. -/
inductive Needed (function : Function) : Point → Prop
  | effect {point : Point} {access : Access} (h : function.accessAt point = some access)
      (hkept : access.write = none ∨ access.removable = false) : Needed function point
  | feeds {point reader : Point} {access readers : Access} {storage : StorageId}
      (h : function.accessAt point = some access) (hwrite : access.write = some storage)
      (hcarries : Carries function storage point.next reader)
      (hreader : function.accessAt reader = some readers) (hread : storage ∈ readers.reads)
      (hneeded : Needed function reader) : Needed function point

/-- Some path carries the storage to a read of a needed access. -/
def LiveAt (function : Function) (storage : StorageId) (point : Point) : Prop :=
  ∃ reader access, Carries function storage point reader ∧ function.accessAt reader = some access ∧
    storage ∈ access.reads ∧ Needed function reader

/-! ## Bit sets -/

section Bits

variable {catalog : List StorageId} {live live' : Finset (Fin catalog.length)} {access : Access}

/-- The storage is in the bit set. -/
def Holds (catalog : List StorageId) (live : Finset (Fin catalog.length)) (storage : StorageId) : Prop :=
  ∃ index ∈ live, index? catalog storage = some index

/-- All storage of the access is in the catalog. -/
def Covers (catalog : List StorageId) (access : Access) : Prop :=
  ∀ storage ∈ storageOf access, ∃ index, index? catalog storage = some index

theorem holds_empty : ¬ Holds catalog ∅ storage := by
  rintro ⟨index, hmem, _⟩
  exact Finset.notMem_empty index hmem

variable {index : Fin catalog.length}

theorem holds_iff (hindex : index? catalog storage = some index) :
    Holds catalog live storage ↔ index ∈ live := by
  constructor
  · rintro ⟨other, hmem, hother⟩
    rw [hindex] at hother
    rw [Option.some.inj hother]
    exact hmem
  · intro hmem
    exact ⟨index, hmem, hindex⟩

theorem holds_mono (h : live ⊆ live') (hholds : Holds catalog live storage) : Holds catalog live' storage := by
  obtain ⟨index, hmem, hindex⟩ := hholds
  exact ⟨index, h hmem, hindex⟩

theorem holds_insert {read : StorageId} (hindex : index? catalog read = some index) :
    Holds catalog (insert index live) storage ↔ storage = read ∨ Holds catalog live storage := by
  constructor
  · rintro ⟨other, hmem, hother⟩
    rcases Finset.mem_insert.mp hmem with rfl | hmem
    · exact Or.inl (index?_inj hother hindex)
    · exact Or.inr ⟨other, hmem, hother⟩
  · rintro (rfl | ⟨other, hmem, hother⟩)
    · exact ⟨index, Finset.mem_insert_self _ _, hindex⟩
    · exact ⟨other, Finset.mem_insert_of_mem hmem, hother⟩

variable {destination : StorageId}

theorem holds_erase (hindex : index? catalog destination = some index) :
    Holds catalog (live.erase index) storage ↔ Holds catalog live storage ∧ destination ≠ storage := by
  constructor
  · rintro ⟨other, hmem, hother⟩
    obtain ⟨hne, hmem⟩ := Finset.mem_erase.mp hmem
    refine ⟨⟨other, hmem, hother⟩, ?_⟩
    rintro rfl
    rw [hindex] at hother
    exact hne (Option.some.inj hother).symm
  · rintro ⟨⟨other, hmem, hother⟩, hne⟩
    refine ⟨other, Finset.mem_erase.mpr ⟨?_, hmem⟩, hother⟩
    rintro rfl
    exact hne (index?_inj hindex hother)

theorem holds_reads {reads : List StorageId}
    (hcovers : ∀ read ∈ reads, ∃ index, index? catalog read = some index) :
    Holds catalog (reads.foldl (setRead catalog) live) storage ↔
      storage ∈ reads ∨ Holds catalog live storage := by
  induction reads generalizing live with
  | nil => simp
  | cons read rest ih =>
      obtain ⟨index, hindex⟩ := hcovers read List.mem_cons_self
      rw [List.foldl_cons, ih fun other hother => hcovers other (List.mem_cons_of_mem _ hother)]
      unfold setRead
      rw [hindex]
      show _ ∨ Holds catalog (insert index live) storage ↔ _
      rw [holds_insert hindex, List.mem_cons]
      constructor
      · rintro (h | h | h)
        · exact Or.inl (Or.inr h)
        · exact Or.inl (Or.inl h)
        · exact Or.inr h
      · rintro ((h | h) | h)
        · exact Or.inr (Or.inl h)
        · exact Or.inl h
        · exact Or.inr (Or.inr h)

theorem Covers.read (h : Covers catalog access) {read : StorageId} (hread : read ∈ access.reads) :
    ∃ index, index? catalog read = some index :=
  h read (List.mem_append_left _ hread)

theorem Covers.write (h : Covers catalog access)
    (hwrite : access.write = some destination) : ∃ index, index? catalog destination = some index :=
  h destination (List.mem_append_right _ (by rw [hwrite]; exact List.mem_singleton_self _))

theorem isDead_iff (hcovers : Covers catalog access) :
    isDead catalog access live = true ↔
      access.removable = true ∧ ∃ destination, access.write = some destination ∧
        ¬ Holds catalog live destination := by
  unfold isDead
  cases hwrite : access.write with
  | none => simp
  | some destination =>
      obtain ⟨index, hindex⟩ := hcovers.write hwrite
      rw [Option.bind_some, hindex]
      show (access.removable && decide (index ∉ live)) = true ↔ _
      rw [Bool.and_eq_true, decide_eq_true_eq]
      constructor
      · rintro ⟨hremovable, hnot⟩
        exact ⟨hremovable, destination, rfl, fun hholds => hnot ((holds_iff hindex).mp hholds)⟩
      · rintro ⟨hremovable, other, hother, hnot⟩
        cases hother
        exact ⟨hremovable, fun hmem => hnot ((holds_iff hindex).mpr hmem)⟩

/-- **What is live before an access**: as after it where the access is dead, else what it reads and what it
leaves of the rest. -/
theorem holds_apply (hcovers : Covers catalog access) :
    Holds catalog (apply catalog access live) storage ↔
      if isDead catalog access live then Holds catalog live storage
      else storage ∈ access.reads ∨ (Holds catalog live storage ∧ access.write ≠ some storage) := by
  unfold apply
  by_cases hdead : isDead catalog access live = true
  · rw [if_pos hdead, if_pos hdead]
  · rw [if_neg hdead, if_neg hdead]
    cases hwrite : access.write with
    | none =>
        show Holds catalog (access.reads.foldl (setRead catalog) live) storage ↔ _
        rw [holds_reads fun read hread => hcovers.read hread]
        simp
    | some destination =>
        obtain ⟨index, hindex⟩ := hcovers.write hwrite
        rw [Option.bind_some, hindex]
        show Holds catalog (access.reads.foldl (setRead catalog) (live.erase index)) storage ↔ _
        rw [holds_reads fun read hread => hcovers.read hread, holds_erase hindex]
        simp

/-- More live storage after an access is more live storage before it. -/
theorem holds_apply_mono (hcovers : Covers catalog access)
    (h : ∀ storage, Holds catalog live storage → Holds catalog live' storage)
    (hholds : Holds catalog (apply catalog access live) storage) :
    Holds catalog (apply catalog access live') storage := by
  rw [holds_apply hcovers] at hholds ⊢
  by_cases hdead' : isDead catalog access live' = true
  · -- an access that is dead with more live storage is dead with less
    rw [if_pos hdead']
    obtain ⟨hremovable, destination, hwrite, hnot⟩ := (isDead_iff hcovers).mp hdead'
    have hdead : isDead catalog access live = true :=
      (isDead_iff hcovers).mpr ⟨hremovable, destination, hwrite, fun hlive => hnot (h _ hlive)⟩
    rw [if_pos hdead] at hholds
    exact h _ hholds
  · rw [if_neg hdead']
    by_cases hdead : isDead catalog access live = true
    · rw [if_pos hdead] at hholds
      obtain ⟨_, destination, hwrite, hnot⟩ := (isDead_iff hcovers).mp hdead
      right
      refine ⟨h _ hholds, ?_⟩
      rw [hwrite]
      rintro heq
      exact hnot (Option.some.inj heq ▸ hholds)
    · rw [if_neg hdead] at hholds
      exact hholds.imp id fun hrest => ⟨h _ hrest.1, hrest.2⟩

theorem holds_transfer_mono {accesses : List Access} (hcovers : ∀ access ∈ accesses, Covers catalog access)
    (h : ∀ storage, Holds catalog live storage → Holds catalog live' storage) :
    ∀ storage, Holds catalog (transfer catalog accesses live) storage →
      Holds catalog (transfer catalog accesses live') storage := by
  induction accesses with
  | nil => exact h
  | cons access rest ih =>
      intro storage hholds
      exact holds_apply_mono (hcovers access List.mem_cons_self)
        (ih fun other hother => hcovers other (List.mem_cons_of_mem _ hother)) hholds

end Bits

/-! ## The equations -/

open ControlFlowGraph

theorem catalog_nodup : (buildStorageCatalog function).Nodup := sortedUnique_nodup _

variable {id : BlockId}

theorem findBlock_mem {block : Block} (h : function.findBlock id = some block) :
    block ∈ function.blocks ∧ block.id = id :=
  ⟨List.mem_of_find?_eq_some h, by simpa using List.find?_some h⟩

variable {access : Access} {point : Point} {live : Finset (Fin (buildStorageCatalog function).length)}

theorem covers_of_mem (h : access ∈ function.accessesOf id) : Covers (buildStorageCatalog function) access := by
  intro other hother
  apply index?_isSome
  unfold Function.accessesOf at h
  cases hblock : function.findBlock id with
  | none =>
      rw [hblock] at h
      cases h
  | some block =>
      rw [hblock] at h
      exact mem_sortedUnique.mpr (List.mem_flatMap.mpr
        ⟨block, (findBlock_mem hblock).1, List.mem_flatMap.mpr ⟨access, h, hother⟩⟩)

theorem covers_of_accessAt (h : function.accessAt point = some access) :
    Covers (buildStorageCatalog function) access :=
  covers_of_mem (List.mem_of_getElem? h)

theorem subset_of_holds {live' : Finset (Fin (buildStorageCatalog function).length)}
    (h : ∀ storage, Holds _ live storage → Holds _ live' storage) : live ⊆ live' := by
  intro index hmem
  have hindex := index?_get (@catalog_nodup function) index
  exact (holds_iff hindex).mp (h _ ((holds_iff hindex).mpr hmem))

/-- The graph that the analysis walks. -/
abbrev Function.graph (function : Function) : ControlFlowGraph := controlFlowFor function

variable {catalog : List StorageId}

theorem holds_foldl_union (nexts : List BlockId)
    (incoming : BlockId → Finset (Fin catalog.length)) (flow : ControlFlowResult)
    (live : Finset (Fin catalog.length)) :
    Holds catalog (nexts.foldl
        (fun live next => if next ∈ flow.preorder then live ∪ incoming next else live) live) storage ↔
      Holds catalog live storage ∨
        ∃ next ∈ nexts, next ∈ flow.preorder ∧ Holds catalog (incoming next) storage := by
  induction nexts generalizing live with
  | nil => simp
  | cons first rest ih =>
      rw [List.foldl_cons, ih, List.exists_mem_cons_iff]
      by_cases hfirst : first ∈ flow.preorder
      · rw [if_pos hfirst, and_iff_right hfirst, ← or_assoc]
        apply or_congr_left
        constructor
        · rintro ⟨index, hmem, hindex⟩
          exact (Finset.mem_union.mp hmem).imp (fun h => ⟨index, h, hindex⟩) fun h => ⟨index, h, hindex⟩
        · rintro (h | h)
          · exact holds_mono Finset.subset_union_left h
          · exact holds_mono Finset.subset_union_right h
      · rw [if_neg hfirst]
        simp [hfirst]

/-- What is live at the end of a block is live at the start of a successor. -/
theorem holds_exitFacts {block : BlockId} (hreach : function.graph.IsReachable block)
    (incoming : BlockId → Finset (Fin catalog.length)) :
    Holds catalog (exitFacts catalog (analyzeControlFlow function.graph) incoming block) storage ↔
      ∃ next ∈ function.graph.validSuccessors block, Holds catalog (incoming next) storage := by
  unfold exitFacts
  rw [flowFact_of_reachable hreach]
  show Holds catalog ((function.graph.blockFacts block).successors.foldl _ ∅) storage ↔ _
  rw [holds_foldl_union]
  constructor
  · rintro (h | ⟨next, hnext, _, h⟩)
    · exact absurd h holds_empty
    · exact ⟨next, mem_successors_blockFacts.mp hnext, h⟩
  · rintro ⟨next, hnext, h⟩
    exact Or.inr ⟨next, mem_successors_blockFacts.mpr hnext, mem_preorder.mpr (hreach.next hnext), h⟩

theorem evaluate_lawful : ((analyzeControlFlow function.graph).equations .backward
    (evaluate (buildStorageCatalog function) (analyzeControlFlow function.graph) function.accessesOf)).Lawful
      function.graph.traversal.preorder := by
  apply backward_lawful
  · intro facts facts' hle block
    have hexit : ∀ storage, Holds _ (exitFacts _ (analyzeControlFlow function.graph) (fun b => (facts b).1) block)
        storage → Holds _ (exitFacts _ (analyzeControlFlow function.graph) (fun b => (facts' b).1) block)
          storage := by
      intro storage
      unfold exitFacts
      cases (analyzeControlFlow function.graph).flowFact block with
      | none => exact id
      | some record =>
          show Holds _ (record.successors.foldl _ ∅) storage → Holds _ (record.successors.foldl _ ∅) storage
          rw [holds_foldl_union, holds_foldl_union]
          rintro (h | ⟨next, hnext, hreach, h⟩)
          · exact absurd h holds_empty
          · exact Or.inr ⟨next, hnext, hreach, holds_mono (hle next).1 h⟩
    constructor
    · exact subset_of_holds (holds_transfer_mono (fun access h => covers_of_mem h) hexit)
    · exact subset_of_holds hexit
  · intro facts facts' reader hreach hsame
    have hexit : exitFacts (buildStorageCatalog function) (analyzeControlFlow function.graph)
        (fun b => (facts b).1) reader = exitFacts _ (analyzeControlFlow function.graph) (fun b => (facts' b).1)
          reader := by
      apply Finset.Subset.antisymm
      · apply subset_of_holds
        intro storage
        rw [holds_exitFacts hreach, holds_exitFacts hreach]
        rintro ⟨next, hnext, h⟩
        rw [hsame next hnext] at h
        exact ⟨next, hnext, h⟩
      · apply subset_of_holds
        intro storage
        rw [holds_exitFacts hreach, holds_exitFacts hreach]
        rintro ⟨next, hnext, h⟩
        rw [← hsame next hnext] at h
        exact ⟨next, hnext, h⟩
    unfold evaluate
    rw [hexit]

/-- The analysis ends. -/
theorem fixedPointOf_isSome (function : Function) :
    ∃ enough, ∀ steps ≥ enough, ∃ facts, fixedPointOf function steps = some facts :=
  solve_isSome evaluate_lawful fun _ _ => ⟨Finset.empty_subset _, Finset.empty_subset _⟩

theorem fixedPointOf_isLeastSolution {steps : Nat} {facts : BlockId → FlowState (buildStorageCatalog function)}
    (h : fixedPointOf function steps = some facts) :
    IsLeastSolution ((analyzeControlFlow function.graph).equations .backward
      (evaluate (buildStorageCatalog function) (analyzeControlFlow function.graph) function.accessesOf))
      function.graph.traversal.preorder (fun _ => (∅, ∅)) facts :=
  solve_isLeastSolution evaluate_lawful (fun _ _ => ⟨Finset.empty_subset _, Finset.empty_subset _⟩) h

/-! ## The solution is strong liveness -/

section Solution

variable {facts : BlockId → FlowState (buildStorageCatalog function)} {point : Point} {access : Access}
  {block : BlockId}

/-- What is live at a point of a block by the facts of its end. -/
def liveAt (function : Function) (facts : BlockId → FlowState (buildStorageCatalog function))
    (point : Point) : Finset (Fin (buildStorageCatalog function).length) :=
  transfer _ ((function.accessesOf point.block).drop point.position) (facts point.block).2

/-- The facts of the reachable blocks solve the equations. -/
def Solves (function : Function) (facts : BlockId → FlowState (buildStorageCatalog function)) : Prop :=
  ∀ block, function.graph.IsReachable block →
    facts block
      = evaluate _ (analyzeControlFlow function.graph) function.accessesOf facts block

theorem liveAt_access (h : function.accessAt point = some access) :
    liveAt function facts point = apply _ access (liveAt function facts point.next) := by
  obtain ⟨hlt, hget⟩ := List.getElem?_eq_some_iff.mp h
  unfold liveAt
  rw [List.drop_eq_getElem_cons hlt, hget]
  rfl

theorem liveAt_end (block : BlockId) : liveAt function facts (function.endOf block) = (facts block).2 := by
  unfold liveAt Function.endOf
  rw [List.drop_length]
  rfl

theorem liveAt_start (h : Solves function facts) (hreach : function.graph.IsReachable block) :
    liveAt function facts (Point.start block) = (facts block).1 := by
  have heq := h block hreach
  have hfirst := congrArg Prod.fst heq
  have hsecond := congrArg Prod.snd heq
  rw [hfirst]
  show transfer _ (function.accessesOf block) (facts block).2 = transfer _ _ _
  rw [hsecond]
  rfl

theorem holds_end (h : Solves function facts) (hreach : function.graph.IsReachable block) :
    Holds _ (facts block).2 storage ↔
      ∃ next ∈ function.graph.validSuccessors block,
        Holds _ (liveAt function facts (Point.start next)) storage := by
  have hsecond : (facts block).2 = exitFacts _ (analyzeControlFlow function.graph) (fun b => (facts b).1) block :=
    congrArg Prod.snd (h block hreach)
  rw [hsecond, holds_exitFacts hreach]
  apply exists_congr
  intro next
  apply and_congr_right
  intro hnext
  rw [liveAt_start h (hreach.next hnext)]

theorem not_accessAt_end (block : BlockId) : function.accessAt (function.endOf block) = none :=
  List.getElem?_eq_none (le_refl _)

theorem Follows.reachable {next : Point} (h : Follows function point next)
    (hreach : function.graph.IsReachable point.block) : function.graph.IsReachable next.block := by
  cases h with
  | access => exact hreach
  | edge hedge => exact hreach.next hedge

/-- What is live after a step and not written by it is live before it. -/
theorem holds_of_follows (h : Solves function facts) (hreach : function.graph.IsReachable point.block)
    {next : Point} (hfollows : Follows function point next)
    (hkept : ∀ access, function.accessAt point = some access → access.write ≠ some storage)
    (hholds : Holds _ (liveAt function facts next) storage) :
    Holds _ (liveAt function facts point) storage := by
  cases hfollows with
  | access haccess =>
      rw [liveAt_access haccess, holds_apply (covers_of_accessAt haccess)]
      split
      · exact hholds
      · exact Or.inr ⟨hholds, hkept _ haccess⟩
  | edge hedge =>
      rw [liveAt_end]
      exact (holds_end h hreach).mpr ⟨_, hedge, hholds⟩

theorem holds_of_carries (h : Solves function facts) {last : Point}
    (hcarries : Carries function storage point last) (hreach : function.graph.IsReachable point.block)
    (hholds : function.graph.IsReachable last.block → Holds _ (liveAt function facts last) storage) :
    Holds _ (liveAt function facts point) storage := by
  induction hcarries with
  | here point => exact hholds hreach
  | step hfollows hkept _ ih =>
      exact holds_of_follows h hreach hfollows hkept (ih (hfollows.reachable hreach) hholds)

theorem holds_of_read (haccess : function.accessAt point = some access) (hread : storage ∈ access.reads)
    (hretained : isDead _ access (liveAt function facts point.next) = false) :
    Holds _ (liveAt function facts point) storage := by
  rw [liveAt_access haccess, holds_apply (covers_of_accessAt haccess), hretained]
  exact Or.inl hread

/-- A needed access is not dead. The induction is on why it is needed. -/
theorem Needed.retained (h : Solves function facts) (hneeded : Needed function point)
    (hreach : function.graph.IsReachable point.block) (haccess : function.accessAt point = some access) :
    isDead _ access (liveAt function facts point.next) = false := by
  induction hneeded generalizing access with
  | effect hsame hkept =>
      cases hsame.symm.trans haccess
      rw [← Bool.not_eq_true, isDead_iff (covers_of_accessAt haccess)]
      rintro ⟨hremovable, destination, hwrite, -⟩
      rcases hkept with hnone | hkept
      · rw [hnone] at hwrite
        cases hwrite
      · rw [hkept] at hremovable
        cases hremovable
  | feeds hsame hwrite hcarries hreader hread _ ih =>
      cases hsame.symm.trans haccess
      rw [← Bool.not_eq_true, isDead_iff (covers_of_accessAt haccess)]
      rintro ⟨_, destination, hwrite', hnot⟩
      cases hwrite.symm.trans hwrite'
      apply hnot
      exact holds_of_carries h hcarries hreach fun hreach' =>
        holds_of_read hreader hread (ih hreach' hreader)

/-- All strongly live storage is in the live sets. -/
theorem LiveAt.holds (h : Solves function facts) (hlive : LiveAt function storage point)
    (hreach : function.graph.IsReachable point.block) :
    Holds _ (liveAt function facts point) storage := by
  obtain ⟨reader, access, hcarries, haccess, hread, hneeded⟩ := hlive
  exact holds_of_carries h hcarries hreach fun hreach' =>
    holds_of_read haccess hread (hneeded.retained h hreach' haccess)

/-! The other direction: the strongly live storage of every block is a solution, and the facts are least. -/

theorem liveAt_before {next : Point} (hfollows : Follows function point next)
    (hkept : ∀ access, function.accessAt point = some access → access.write ≠ some storage)
    (hlive : LiveAt function storage next) : LiveAt function storage point := by
  obtain ⟨reader, access, hcarries, hrest⟩ := hlive
  exact ⟨reader, access, .step hfollows hkept hcarries, hrest⟩

/-- Where all that a bit set holds after an access is live, so is all that it holds before it. -/
theorem live_of_holds_apply (haccess : function.accessAt point = some access)
    (hlive : ∀ storage, Holds _ live storage → LiveAt function storage point.next)
    (hholds : Holds _ (apply _ access live) storage) : LiveAt function storage point := by
  have hcovers := covers_of_accessAt haccess
  have hbefore : ∀ {other}, Holds _ live other → access.write ≠ some other → LiveAt function other point := by
    intro other hother hwrite
    refine liveAt_before (.access haccess) (fun same hsame => ?_) (hlive other hother)
    cases hsame.symm.trans haccess
    exact hwrite
  rw [holds_apply hcovers] at hholds
  by_cases hdead : isDead _ access live = true
  · rw [if_pos hdead] at hholds
    obtain ⟨_, destination, hwrite, hnot⟩ := (isDead_iff hcovers).mp hdead
    apply hbefore hholds
    rw [hwrite]
    intro heq
    exact hnot (Option.some.inj heq ▸ hholds)
  · rw [if_neg hdead] at hholds
    rcases hholds with hread | ⟨hrest, hwrite⟩
    · refine ⟨point, access, .here point, haccess, hread, ?_⟩
      cases hwrite : access.write with
      | none => exact .effect haccess (Or.inl hwrite)
      | some destination =>
          by_cases hremovable : access.removable = true
          · have hdestination : Holds _ live destination := by
              by_contra hnot
              exact hdead ((isDead_iff hcovers).mpr ⟨hremovable, destination, hwrite, hnot⟩)
            obtain ⟨reader, readers, hcarries, hreader, hread', hneeded⟩ := hlive destination hdestination
            exact .feeds haccess hwrite hcarries hreader hread' hneeded
          · exact .effect haccess (Or.inr (by simpa using hremovable))
    · exact hbefore hrest hwrite

theorem live_of_holds_transfer
    (hlive : ∀ storage, Holds _ live storage → LiveAt function storage (function.endOf block))
    (accesses : List Access) (position : Nat) (hdrop : (function.accessesOf block).drop position = accesses)
    (hle : position ≤ (function.accessesOf block).length) :
    ∀ storage, Holds _ (transfer _ accesses live) storage → LiveAt function storage ⟨block, position⟩ := by
  induction accesses generalizing position with
  | nil =>
      have hend : position = (function.accessesOf block).length := by
        have := congrArg List.length hdrop
        rw [List.length_drop, List.length_nil] at this
        omega
      intro storage hholds
      rw [hend]
      exact hlive storage hholds
  | cons access rest ih =>
      have hlt : position < (function.accessesOf block).length := by
        have := congrArg List.length hdrop
        rw [List.length_drop, List.length_cons] at this
        omega
      rw [List.drop_eq_getElem_cons hlt, List.cons.injEq] at hdrop
      have haccess : function.accessAt ⟨block, position⟩ = some access :=
        List.getElem?_eq_some_iff.mpr ⟨hlt, hdrop.1⟩
      intro storage hholds
      exact live_of_holds_apply haccess (ih (position + 1) hdrop.2 hlt) hholds

/-- **The live sets are those of strong liveness.** -/
theorem holds_iff_liveAt
    (h : IsLeastSolution ((analyzeControlFlow function.graph).equations .backward
      (evaluate (buildStorageCatalog function) (analyzeControlFlow function.graph) function.accessesOf))
      function.graph.traversal.preorder (fun _ => (∅, ∅)) facts)
    (hreach : function.graph.IsReachable point.block)
    (hle : point.position ≤ (function.accessesOf point.block).length) :
    Holds _ (liveAt function facts point) storage ↔ LiveAt function storage point := by
  have hsolves : Solves function facts := fun block hblock => h.solves block (mem_preorder.mpr hblock)
  classical
  -- the sets that the definition asks for
  let asked : BlockId → FlowState (buildStorageCatalog function) := fun block =>
    (Finset.univ.filter fun index => LiveAt function ((buildStorageCatalog function).get index) (Point.start block),
      Finset.univ.filter fun index => LiveAt function ((buildStorageCatalog function).get index)
        (function.endOf block))
  have hentry : ∀ block storage, Holds _ (asked block).1 storage → LiveAt function storage (Point.start block) := by
    rintro block storage ⟨index, hmem, hindex⟩
    rw [← get_of_index? hindex]
    exact (Finset.mem_filter.mp hmem).2
  have hexit : ∀ block storage, Holds _ (asked block).2 storage → LiveAt function storage (function.endOf block) := by
    rintro block storage ⟨index, hmem, hindex⟩
    rw [← get_of_index? hindex]
    exact (Finset.mem_filter.mp hmem).2
  have hfilter : ∀ {live : Finset (Fin (buildStorageCatalog function).length)} {at_ : Point},
      (∀ storage, Holds _ live storage → LiveAt function storage at_) →
        live ⊆ Finset.univ.filter fun index => LiveAt function ((buildStorageCatalog function).get index) at_ := by
    intro live at_ hlive index hmem
    have hindex := index?_get (@catalog_nodup function) index
    exact Finset.mem_filter.mpr ⟨Finset.mem_univ _, hlive _ ⟨index, hmem, hindex⟩⟩
  have hbelow : facts ≤ asked := by
    apply h.least asked fun _ => ⟨Finset.empty_subset _, Finset.empty_subset _⟩
    intro block hblock
    have hend : ∀ storage, Holds _ (exitFacts _ (analyzeControlFlow function.graph) (fun b => (asked b).1) block)
        storage → LiveAt function storage (function.endOf block) := by
      intro storage hholds
      obtain ⟨next, hnext, hholds⟩ := (holds_exitFacts (mem_preorder.mp hblock) _).mp hholds
      refine liveAt_before (.edge hnext) (fun access haccess => ?_) (hentry next storage hholds)
      rw [not_accessAt_end] at haccess
      cases haccess
    exact ⟨hfilter (live_of_holds_transfer hend (function.accessesOf block) 0 rfl (Nat.zero_le _)), hfilter hend⟩
  constructor
  · apply live_of_holds_transfer _ _ point.position rfl hle
    intro storage hholds
    exact hexit point.block storage (holds_mono (hbelow point.block).2 hholds)
  · intro hlive
    exact hlive.holds hsolves hreach

end Solution

/-! ## What is reported -/

section Report

variable {catalog : List StorageId} {facts : BlockId → FlowState (buildStorageCatalog function)}
  {block : BlockId} {point : Point} {access : Access} {materializeLiveSets : Bool}

theorem mem_visible (hnodup : catalog.Nodup) {live : Finset (Fin catalog.length)} :
    storage ∈ visible catalog live ↔ Holds catalog live storage := by
  unfold visible
  rw [List.mem_map]
  constructor
  · rintro ⟨index, hmem, rfl⟩
    exact ⟨index, by simpa using hmem, index?_get hnodup index⟩
  · rintro ⟨index, hmem, hindex⟩
    exact ⟨index, by simpa using hmem, get_of_index? hindex⟩

/-- An access that is not retained leaves the live sets as they are. -/
theorem buildAccessFacts_live (live : Finset (Fin catalog.length)) (accesses : List Access) :
    (buildAccessFacts catalog materializeLiveSets live accesses).2 = transfer catalog accesses live := by
  induction accesses with
  | nil => rfl
  | cons access rest ih =>
      unfold buildAccessFacts
      dsimp only
      rw [ih]
      show _ = apply catalog access (transfer catalog rest live)
      cases hdead : isDead catalog access (transfer catalog rest live) with
      | false => rfl
      | true =>
          unfold apply
          rw [hdead]
          rfl

theorem buildAccessFacts_retained (live : Finset (Fin catalog.length)) (accesses : List Access)
    (position : Nat) :
    (buildAccessFacts catalog materializeLiveSets live accesses).1[position]?.map AccessFacts.retained =
      accesses[position]?.map fun access =>
        !isDead catalog access (transfer catalog (accesses.drop (position + 1)) live) := by
  induction accesses generalizing position with
  | nil => rfl
  | cons access rest ih =>
      unfold buildAccessFacts
      dsimp only
      cases position with
      | zero =>
          rw [buildAccessFacts_live]
          rfl
      | succ position =>
          rw [List.getElem?_cons_succ, List.getElem?_cons_succ, ih]
          rfl

theorem buildBlockFacts_block {flow : ControlFlowResult} {facts : BlockId → FlowState catalog}
    (accesses : List Access) :
    (buildBlockFacts catalog flow facts materializeLiveSets block accesses).block = block := by
  unfold buildBlockFacts
  split <;> rfl

/-- The facts of a block show its sets where it is reachable. -/
theorem mem_buildFacts {record : BlockFacts} (h : record ∈ buildFacts function facts materializeLiveSets) :
    ∃ block, record.block = block ∧
      ((function.graph.IsReachable block ∧ record.reachable = true ∧
          record.liveOnEntry = (if materializeLiveSets then visible _ (facts block).1 else []) ∧
          record.liveOnExit = if materializeLiveSets then visible _ (facts block).2 else []) ∨
        (¬ function.graph.IsReachable block ∧ record.reachable = false ∧ record.liveOnEntry = [] ∧
          record.liveOnExit = [])) := by
  obtain ⟨block, _, rfl⟩ := List.mem_map.mp h
  refine ⟨block, buildBlockFacts_block _, ?_⟩
  unfold buildBlockFacts
  by_cases hreach : function.graph.IsReachable block
  · rw [if_pos (show block ∈ (analyzeControlFlow function.graph).preorder from mem_preorder.mpr hreach)]
    exact Or.inl ⟨hreach, rfl, rfl, rfl⟩
  · rw [if_neg (show block ∉ (analyzeControlFlow function.graph).preorder from
      fun hmem => hreach (mem_preorder.mp hmem))]
    exact Or.inr ⟨hreach, rfl, rfl, rfl⟩

/-- The result of the facts of a fixed point. -/
def resultOf (function : Function) (facts : BlockId → FlowState (buildStorageCatalog function))
    (materializeLiveSets : Bool) : Result where
  issues := (analyzeControlFlow (controlFlowFor function)).issues
  facts := buildFacts function facts materializeLiveSets

theorem mem_ids (hreach : function.graph.IsReachable block) :
    block ∈ sortedUnique (function.blocks.map Block.id) := by
  have hmem := hreach.mem_blockIds
  rw [mem_blockIds] at hmem
  obtain ⟨record, hrecord, hid⟩ := hmem
  obtain ⟨source, hsource, rfl⟩ := List.mem_map.mp hrecord
  exact mem_sortedUnique.mpr (List.mem_map.mpr ⟨source, hsource, hid⟩)

theorem retainedAt_resultOf (hreach : function.graph.IsReachable point.block)
    (haccess : function.accessAt point = some access) :
    (resultOf function facts materializeLiveSets).retainedAt point.block point.position =
      !isDead _ access (liveAt function facts point.next) := by
  have hfind : (resultOf function facts materializeLiveSets).facts.find? (fun facts => facts.block == point.block)
      = some (buildBlockFacts _ (analyzeControlFlow function.graph) facts materializeLiveSets point.block
        (function.accessesOf point.block)) := by
    show List.find? _ (List.map _ _) = _
    rw [find?_map_of_key BlockFacts.block _ fun _ => buildBlockFacts_block _, if_pos (mem_ids hreach)]
  have hget := @buildAccessFacts_retained (buildStorageCatalog function) materializeLiveSets (facts point.block).2
    (function.accessesOf point.block) point.position
  unfold Result.retainedAt
  rw [hfind]
  unfold buildBlockFacts
  rw [if_pos (show point.block ∈ (analyzeControlFlow function.graph).preorder from mem_preorder.mpr hreach)]
  dsimp only
  rw [show (function.accessesOf point.block)[point.position]? = some access from haccess] at hget
  obtain ⟨record, hrecord, hretained⟩ := Option.map_eq_some_iff.mp hget
  rw [hrecord]
  exact hretained

/-- The accesses of a block that is not reachable are all kept. -/
theorem retainedAt_unreachable (hreach : ¬ function.graph.IsReachable point.block) :
    (resultOf function facts materializeLiveSets).retainedAt point.block point.position = true := by
  unfold Result.retainedAt
  split
  · rfl
  · rename_i record hfind
    obtain ⟨block, _, rfl⟩ := List.mem_map.mp (List.mem_of_find?_eq_some hfind)
    have hblock : (buildBlockFacts (buildStorageCatalog function) (analyzeControlFlow function.graph) facts
        materializeLiveSets block (function.accessesOf block)).block = point.block := by
      simpa using List.find?_some hfind
    rw [buildBlockFacts_block] at hblock
    subst hblock
    unfold buildBlockFacts
    rw [if_neg (show point.block ∉ (analyzeControlFlow function.graph).preorder from
      fun hmem => hreach (mem_preorder.mp hmem))]
    dsimp only
    rw [List.getElem?_map]
    cases (function.accessesOf point.block)[point.position]? <;> rfl

/-- **The reported sets are those of strong liveness**, over the paths that start at the entry, and the
accesses to remove are the reachable ones that are not needed. -/
structure ExactLiveness (function : Function) (result : Result) : Prop where
  covered : ∀ block ∈ function.blocks, ∃ facts ∈ result.facts, facts.block = block.id
  reachable : ∀ facts ∈ result.facts, (facts.reachable = true ↔ function.graph.IsReachable facts.block)
  onEntry : ∀ facts ∈ result.facts, ∀ storage, storage ∈ facts.liveOnEntry ↔
    function.graph.IsReachable facts.block ∧ LiveAt function storage (Point.start facts.block)
  onExit : ∀ facts ∈ result.facts, ∀ storage, storage ∈ facts.liveOnExit ↔
    function.graph.IsReachable facts.block ∧ LiveAt function storage (function.endOf facts.block)
  retained : ∀ point access, function.accessAt point = some access →
    (result.retainedAt point.block point.position = true ↔
      (function.graph.IsReachable point.block → Needed function point))

variable (h : IsLeastSolution ((analyzeControlFlow function.graph).equations .backward
    (evaluate (buildStorageCatalog function) (analyzeControlFlow function.graph) function.accessesOf))
    function.graph.traversal.preorder (fun _ => (∅, ∅)) facts)

include h

theorem retained_iff_needed
    (hreach : function.graph.IsReachable point.block) (haccess : function.accessAt point = some access) :
    isDead _ access (liveAt function facts point.next) = false ↔ Needed function point := by
  have hsolves : Solves function facts := fun block hblock => h.solves block (mem_preorder.mpr hblock)
  constructor
  · intro hretained
    cases hwrite : access.write with
    | none => exact .effect haccess (Or.inl hwrite)
    | some destination =>
        by_cases hremovable : access.removable = true
        · have hlive : Holds _ (liveAt function facts point.next) destination := by
            by_contra hnot
            rw [(isDead_iff (covers_of_accessAt haccess)).mpr ⟨hremovable, destination, hwrite, hnot⟩]
              at hretained
            cases hretained
          have hlt := (List.getElem?_eq_some_iff.mp haccess).1
          have hiff : Holds _ (liveAt function facts point.next) destination ↔
              LiveAt function destination point.next := holds_iff_liveAt h hreach hlt
          obtain ⟨reader, readers, hcarries, hreader, hread, hneeded⟩ := hiff.mp hlive
          exact .feeds haccess hwrite hcarries hreader hread hneeded
        · exact .effect haccess (Or.inr (by simpa using hremovable))
  · intro hneeded
    exact hneeded.retained hsolves hreach haccess

theorem exactLiveness_resultOf : ExactLiveness function (resultOf function facts true) := by
  have hsolves : Solves function facts := fun block hblock => h.solves block (mem_preorder.mpr hblock)
  constructor
  · intro block hblock
    exact ⟨_, List.mem_map_of_mem (mem_sortedUnique.mpr (List.mem_map_of_mem hblock)),
      buildBlockFacts_block _⟩
  · intro record hrecord
    obtain ⟨block, rfl, hkind⟩ := mem_buildFacts hrecord
    rcases hkind with ⟨hreach, hreachable, -, -⟩ | ⟨hreach, hreachable, -, -⟩ <;> simp [hreach, hreachable]
  · intro record hrecord storage
    obtain ⟨block, rfl, hkind⟩ := mem_buildFacts hrecord
    rcases hkind with ⟨hreach, -, hentry, -⟩ | ⟨hreach, -, hentry, -⟩
    · rw [hentry, if_pos rfl, mem_visible catalog_nodup, ← liveAt_start hsolves hreach, and_iff_right hreach]
      exact holds_iff_liveAt h hreach (Nat.zero_le _)
    · simp [hentry, hreach]
  · intro record hrecord storage
    obtain ⟨block, rfl, hkind⟩ := mem_buildFacts hrecord
    rcases hkind with ⟨hreach, -, -, hexit⟩ | ⟨hreach, -, -, hexit⟩
    · rw [hexit, if_pos rfl, mem_visible catalog_nodup, ← liveAt_end, and_iff_right hreach]
      exact holds_iff_liveAt h hreach (le_refl _)
    · simp [hexit, hreach]
  · intro point access haccess
    by_cases hreach : function.graph.IsReachable point.block
    · rw [retainedAt_resultOf hreach haccess, Bool.not_eq_true', imp_iff_right hreach]
      exact retained_iff_needed h hreach haccess
    · simp [retainedAt_unreachable hreach, hreach]

end Report

/-! ## Leaving accesses out -/

section Execution

variable {V : Type} {facts : BlockId → FlowState (buildStorageCatalog function)}

/-- A value, and the step of the path that wrote it, when one did. -/
structure Written (V : Type) where
  value : V
  writer : Option Nat

/-- What an access of a path reads. -/
structure Observation (V : Type) where
  point : Point
  step : Nat
  reads : List (Written V)

/-- The store after an access that is kept. -/
def written (access : Access) (store : StorageId → Written V) (new : Written V) : StorageId → Written V :=
  match access.write with
  | none => store
  | some destination => Function.update store destination new

/-- Run the accesses of a path that are kept. Written values are computed from the values that were read, by
any function. -/
def execute (function : Function) (compute : Nat → Point → List V → V) (keep : Point → Bool) :
    Nat → List Point → (StorageId → Written V) → List (Observation V)
  | _, [], _ => []
  | step, point :: rest, store =>
      match function.accessAt point with
      | none => execute function compute keep (step + 1) rest store
      | some access =>
          if keep point then
            let reads := access.reads.map store
            let value := compute step point (reads.map Written.value)
            ⟨point, step, reads⟩ ::
              execute function compute keep (step + 1) rest (written access store ⟨value, some step⟩)
          else execute function compute keep (step + 1) rest store

/-- Two stores that agree on all that is live. -/
def Agree (function : Function) (facts : BlockId → FlowState (buildStorageCatalog function)) (point : Point)
    (store store' : StorageId → Written V) : Prop :=
  ∀ storage, Holds _ (liveAt function facts point) storage → store storage = store' storage

variable {store store' : StorageId → Written V}

/-- Stores that agree before a kept access show it the same and agree after it. -/
theorem Agree.kept (h : Agree function facts point store store') (haccess : function.accessAt point = some access)
    (hretained : isDead _ access (liveAt function facts point.next) = false) :
    access.reads.map store = access.reads.map store' ∧
      ∀ new, Agree function facts point.next (written access store new) (written access store' new) := by
  constructor
  · apply List.map_congr_left
    intro storage hread
    exact h storage (holds_of_read haccess hread hretained)
  · intro new storage hholds
    unfold written
    cases hwrite : access.write with
    | none =>
        apply h
        rw [liveAt_access haccess, holds_apply (covers_of_accessAt haccess), hretained]
        exact Or.inr ⟨hholds, by rw [hwrite]; exact nofun⟩
    | some destination =>
        by_cases heq : storage = destination
        · show Function.update store destination new storage = Function.update store' destination new storage
          rw [heq, Function.update_self, Function.update_self]
        · show Function.update store destination new storage = Function.update store' destination new storage
          rw [Function.update_of_ne heq, Function.update_of_ne heq]
          apply h
          rw [liveAt_access haccess, holds_apply (covers_of_accessAt haccess), hretained]
          refine Or.inr ⟨hholds, ?_⟩
          rw [hwrite]
          intro hsame
          exact heq (Option.some.inj hsame).symm

/-- An access that is left out wrote nothing that is live. -/
theorem Agree.left (h : Agree function facts point store store') (haccess : function.accessAt point = some access)
    (hdead : isDead _ access (liveAt function facts point.next) = true) (new : Written V) :
    Agree function facts point.next (written access store new) store' := by
  intro storage hholds
  obtain ⟨_, destination, hwrite, hnot⟩ := (isDead_iff (covers_of_accessAt haccess)).mp hdead
  have hne : storage ≠ destination := by
    rintro rfl
    exact hnot hholds
  unfold written
  rw [hwrite]
  refine (Function.update_of_ne hne _ _).trans ?_
  apply h
  rw [liveAt_access haccess, holds_apply (covers_of_accessAt haccess), hdead]
  exact hholds

theorem Agree.follows (hsolves : Solves function facts) {next : Point}
    (h : Agree function facts point store store')
    (hreach : function.graph.IsReachable point.block) (hfollows : Follows function point next)
    (hend : function.accessAt point = none) : Agree function facts next store store' := by
  intro storage hholds
  apply h
  apply holds_of_follows hsolves hreach hfollows _ hholds
  intro access haccess
  rw [hend] at haccess
  cases haccess

/-- What the stores of the two runs have in common at a point: all where it is not reachable. -/
def Matches (function : Function) (facts : BlockId → FlowState (buildStorageCatalog function)) (point : Point)
    (store store' : StorageId → Written V) : Prop :=
  (function.graph.IsReachable point.block → Agree function facts point store store') ∧
    (¬ function.graph.IsReachable point.block → store = store')

theorem Matches.of_eq (store : StorageId → Written V) : Matches function facts point store store :=
  ⟨fun _ _ _ => rfl, fun _ => rfl⟩

/-- **Leaving out all dead accesses at once changes nothing that the others read.** The stores of the two runs
agree on what is live at every point of the path. -/
theorem execute_retained (hsolves : Solves function facts) (compute : Nat → Point → List V → V)
    {keep : Point → Bool}
    (hkeep : ∀ point access, function.graph.IsReachable point.block → function.accessAt point = some access →
      keep point = !isDead _ access (liveAt function facts point.next))
    (hall : ∀ point, ¬ function.graph.IsReachable point.block → keep point = true)
    (path : List Point) (hpath : path.IsChain (Follows function)) (step : Nat)
    {store store' : StorageId → Written V}
    (hmatches : ∀ first, path.head? = some first → Matches function facts first store store') :
    (execute function compute (fun _ => true) step path store).filter (fun shown => keep shown.point)
      = execute function compute keep step path store' := by
  induction path generalizing step store store' with
  | nil => rfl
  | cons point rest ih =>
      have hpoint := hmatches point rfl
      have hfollows : ∀ next, rest.head? = some next → Follows function point next := by
        intro next hnext
        cases rest with
        | nil => cases hnext
        | cons second later =>
            cases hnext
            exact (List.isChain_cons_cons.mp hpath).1
      unfold execute
      cases haccess : function.accessAt point with
      | none =>
          apply ih hpath.tail (step + 1)
          intro next hnext
          by_cases hreach : function.graph.IsReachable point.block
          · have hfollows := hfollows next hnext
            refine ⟨fun _ => (hpoint.1 hreach).follows hsolves hreach hfollows haccess, fun hnot => ?_⟩
            exact absurd (hfollows.reachable hreach) hnot
          · rw [hpoint.2 hreach]
            exact Matches.of_eq store'
      | some access =>
          have hnext : ∀ next, rest.head? = some next → next = point.next := by
            intro next hnext
            cases hfollows next hnext with
            | access => rfl
            | edge hedge =>
                rw [not_accessAt_end] at haccess
                cases haccess
          dsimp only
          rw [if_pos rfl, List.filter_cons]
          by_cases hreach : function.graph.IsReachable point.block
          · have hagree := hpoint.1 hreach
            cases hdead : isDead _ access (liveAt function facts point.next) with
            | true =>
                rw [hkeep point access hreach haccess, hdead]
                apply ih hpath.tail (step + 1)
                intro next hnext'
                rw [hnext next hnext']
                exact ⟨fun _ => hagree.left haccess hdead _, fun hnot => absurd hreach hnot⟩
            | false =>
                obtain ⟨hreads, hafter⟩ := hagree.kept haccess hdead
                rw [hkeep point access hreach haccess, hdead, Bool.not_false, if_pos rfl, if_pos rfl, hreads]
                congr 1
                apply ih hpath.tail (step + 1)
                intro next hnext'
                rw [hnext next hnext']
                exact ⟨fun _ => hafter _, fun hnot => absurd hreach hnot⟩
          · rw [hall point hreach, if_pos rfl, if_pos rfl, hpoint.2 hreach]
            congr 1
            exact ih hpath.tail (step + 1) fun next _ => Matches.of_eq _

/-- Leaving out what a result does not retain, all at once, shows every other access the values it read, from
the writes it read them from, on every path and whatever is written. -/
def RemovalSafe (function : Function) (result : Result) : Prop :=
  ∀ (V : Type) (compute : Nat → Point → List V → V) (path : List Point) (store : StorageId → Written V),
    path.IsChain (Follows function) →
      (execute function compute (fun _ => true) 0 path store).filter
          (fun shown => result.retainedAt shown.point.block shown.point.position)
        = execute function compute (fun point => result.retainedAt point.block point.position) 0 path store

theorem removalSafe_resultOf (hsolves : Solves function facts) (materializeLiveSets : Bool) :
    RemovalSafe function (resultOf function facts materializeLiveSets) := by
  intro V compute path store hpath
  apply @execute_retained _ _ _ hsolves compute
    fun point => (resultOf function facts materializeLiveSets).retainedAt point.block point.position
  · intro point access hreach haccess
    exact retainedAt_resultOf hreach haccess
  · intro point hreach
    exact retainedAt_unreachable hreach
  · exact hpath
  · intro first _
    exact Matches.of_eq store

end Execution

/-- **The analysis ends with the sets of strong liveness, and what it removes is not missed**: all at once,
on every path. Without the sets it removes the same. -/
theorem liveness_exact (function : Function) :
    ∃ full brief,
      (∃ enough, ∀ steps ≥ enough,
        analyze function true steps = some full ∧ analyze function false steps = some brief) ∧
      ExactLiveness function full ∧ RemovalSafe function full ∧
      ∀ point access, function.accessAt point = some access →
        brief.retainedAt point.block point.position = full.retainedAt point.block point.position := by
  obtain ⟨enough, hended⟩ := fixedPointOf_isSome function
  obtain ⟨facts, hfacts⟩ := hended enough (le_refl enough)
  have hleast := fixedPointOf_isLeastSolution hfacts
  have hsolves : Solves function facts := fun block hblock => hleast.solves block (mem_preorder.mpr hblock)
  refine ⟨resultOf function facts true, resultOf function facts false, ⟨enough, fun steps hsteps => ?_⟩,
    exactLiveness_resultOf hleast, removalSafe_resultOf hsolves true,
    fun point access haccess => ?_⟩
  · obtain ⟨facts', hfacts'⟩ := hended steps hsteps
    have hsame : facts' = facts := (fixedPointOf_isLeastSolution hfacts').unique hleast
    unfold analyze
    rw [hfacts', hsame]
    exact ⟨rfl, rfl⟩
  · by_cases hreach : function.graph.IsReachable point.block
    · rw [retainedAt_resultOf hreach haccess, retainedAt_resultOf hreach haccess]
    · rw [retainedAt_unreachable hreach, retainedAt_unreachable hreach]

/-- Copies that only need each other around a loop all go. -/
example :
    let copies : Function :=
      { entry := 0
        blocks := [⟨0, [1], []⟩, ⟨1, [1, 2], [⟨0, false, [7], some 8, true⟩, ⟨1, false, [8], some 7, true⟩]⟩,
          ⟨2, [], [⟨0, true, [], none, false⟩]⟩] }
    (analyze copies false 20).map (fun result => [result.retainedAt 1 0, result.retainedAt 1 1,
      result.retainedAt 2 0]) = some [false, false, true] := by
  decide

end Liveness

end Tala.Analysis.Liveness
