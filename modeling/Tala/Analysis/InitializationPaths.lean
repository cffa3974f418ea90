import Tala.Analysis.DefiniteInitialization

/-!
# `Analysis.InitializationPaths` — definite initialization as a property of paths

The fixed point of `DefiniteInitialization` is compared with the paths of the function. Storage is
initialized on entry to a block exactly if every path from the entry to the block has written it
(`mem_incoming_iff`), so a read is reported exactly if some path reaches it without a write
(`mem_validateAccesses_iff`). Storage that the caller supplies counts as written before the path starts.

One direction is an induction along the path. The other compares the fixed point with the sets that the
paths define: they satisfy the equations, and the fixed point holds the most storage of all that do.
-/

namespace Tala.Analysis.DefiniteInitialization

open Library.Catalog Library.Dataflow ControlFlowGraph

/-! ## Paths -/

/-- The storage that accesses write, in their order. -/
def writesOf (accesses : List AccessPoint) : List StorageId := accesses.filterMap AccessPoint.write

/-- A path from the entry, by the blocks it runs through before it arrives at a block. -/
inductive Function.Path (function : Function) : BlockId → List BlockId → Prop
  | entry (h : function.entry ∈ (controlFlowFor function).blockIds) : Path function function.entry []
  | step {id target : BlockId} {path : List BlockId} (h : Path function id path)
      (hedge : target ∈ (controlFlowFor function).validSuccessors id) :
      Path function target (path ++ [id])

/-- What has been written when a path arrives. -/
def Function.writtenAlong (function : Function) (path : List BlockId) : List StorageId :=
  function.initiallyInitialized ++ path.flatMap fun id => writesOf (function.accessesOf id)

/-- A read that some path reaches before any write of its storage, as the issue that reports it. -/
def Function.ReadsEarly (function : Function) (issue : Issue) : Prop :=
  ∃ id path before access after storage, function.Path id path ∧
    function.accessesOf id = before ++ access :: after ∧ storage ∈ access.reads ∧
    storage ∈ function.declarations ∧ storage ∉ function.writtenAlong path ∧
    storage ∉ writesOf before ∧
    issue = ⟨.readBeforeInitialization, id, access.instruction, access.terminator, storage, 0⟩

section Paths

variable {function : Function} {id target : BlockId} {path : List BlockId}

/-- The blocks that paths arrive at are the reachable ones. -/
theorem exists_path_iff : (∃ path, function.Path id path) ↔ (controlFlowFor function).IsReachable id := by
  constructor
  · rintro ⟨path, h⟩
    induction h with
    | entry h => exact ⟨h, Relation.ReflTransGen.refl⟩
    | step _ hedge ih => exact ih.next hedge
  · rintro ⟨hentry, hreach⟩
    induction hreach with
    | refl => exact ⟨[], .entry hentry⟩
    | tail _ hedge ih =>
        obtain ⟨path, hpath⟩ := ih
        exact ⟨_, hpath.step hedge⟩

theorem mem_writtenAlong_snoc {storage : StorageId} :
    storage ∈ function.writtenAlong (path ++ [id]) ↔
      storage ∈ function.writtenAlong path ∨ storage ∈ writesOf (function.accessesOf id) := by
  unfold Function.writtenAlong
  rw [List.flatMap_append, ← List.append_assoc, List.mem_append]
  simp

end Paths

/-! ## Sets of storage -/

section Sets

variable {catalog : List StorageId} (hcatalog : catalog.Nodup)

include hcatalog

theorem index?_eq_some_iff {storage : StorageId} {index : Fin catalog.length} :
    index? catalog storage = some index ↔ storage = catalog.get index := by
  constructor
  · intro h
    exact (get_of_index? h).symm
  · rintro rfl
    exact index?_get hcatalog index

theorem mem_transferWrites {accesses : List AccessPoint} {initialized : Finset (Fin catalog.length)}
    {index : Fin catalog.length} :
    index ∈ transferWrites catalog accesses initialized ↔
      index ∈ initialized ∨ catalog.get index ∈ writesOf accesses := by
  unfold transferWrites
  induction accesses generalizing initialized with
  | nil => simp [writesOf]
  | cons access accesses ih =>
      have hwrite : access.write.bind (index? catalog) = some index ↔
          access.write = some (catalog.get index) := by
        rw [Option.bind_eq_some_iff]
        simp only [index?_eq_some_iff hcatalog, exists_eq_right]
      rw [List.foldl_cons, ih, mem_write, hwrite, or_assoc]
      refine or_congr_right ?_
      unfold writesOf
      cases hfirst : access.write with
      | none => simp [hfirst]
      | some storage => simp [hfirst, eq_comm]

theorem mem_initialStorage_iff {entry : BlockId} {initialized : List StorageId} {index : Fin catalog.length} :
    index ∈ (initialStorage catalog entry initialized).1 ↔ catalog.get index ∈ initialized := by
  refine ⟨mem_initialStorage, fun h => ?_⟩
  induction initialized with
  | nil => cases h
  | cons first rest ih =>
      unfold initialStorage
      cases hindex : index? catalog first with
      | none =>
          rcases List.mem_cons.mp h with heq | h
          · rw [← heq, index?_get hcatalog] at hindex
            cases hindex
          · exact ih h
      | some position =>
          rw [Finset.mem_insert]
          rcases List.mem_cons.mp h with heq | h
          · rw [index?_eq_some_iff hcatalog, ← heq] at hindex
            exact Or.inl ((List.nodup_iff_injective_get.mp hcatalog) hindex)
          · exact Or.inr (ih h)

end Sets

theorem buildStorageCatalog_nodup (function : Function) : (buildStorageCatalog function).Nodup :=
  sortedUnique_nodup _

theorem mem_buildStorageCatalog {function : Function} {storage : StorageId} :
    storage ∈ buildStorageCatalog function ↔ storage ∈ function.declarations :=
  mem_sortedUnique

/-- The storage of a bit set is the part of the catalog with its bits set. -/
theorem visibleStorage_sublist (catalog : List StorageId) (bits : Finset (Fin catalog.length)) :
    (visibleStorage catalog bits).Sublist catalog := by
  have h := (List.filter_sublist (p := (· ∈ bits)) (l := List.finRange catalog.length)).map catalog.get
  rwa [List.map_get_finRange] at h

theorem mem_visibleStorage {catalog : List StorageId} (hcatalog : catalog.Nodup)
    {bits : Finset (Fin catalog.length)} {index : Fin catalog.length} :
    catalog.get index ∈ visibleStorage catalog bits ↔ index ∈ bits := by
  unfold visibleStorage
  simp only [List.mem_map, List.mem_filter, List.mem_finRange, true_and, decide_eq_true_eq]
  constructor
  · rintro ⟨other, hother, heq⟩
    rwa [← (List.nodup_iff_injective_get.mp hcatalog) heq]
  · intro h
    exact ⟨index, h, rfl⟩

/-! ## The fixed point and the paths -/

section FixedPoint

variable {function : Function} {steps : Nat} {facts : BlockId → FlowState (buildStorageCatalog function)}
  {id : BlockId}

/-- What is initialized on entry has been written on every path. -/
theorem written_of_incoming (hfacts : fixedPointOf function steps = some facts) {path : List BlockId}
    (hpath : function.Path id path) {index : Fin (buildStorageCatalog function).length}
    (h : index ∈ (facts id).1) :
    (buildStorageCatalog function).get index ∈ function.writtenAlong path := by
  have hnodup := buildStorageCatalog_nodup function
  -- the way in is the external call, for the first arrival and for a return alike
  have hcalled : ∀ {path}, (controlFlowFor function).IsReachable function.entry →
      index ∈ (facts function.entry).1 →
        (buildStorageCatalog function).get index ∈ function.writtenAlong path := by
    intro path hreach hindex
    rw [(fixedPointOf_solves hfacts hreach).1, incomingFacts, if_pos rfl] at hindex
    exact List.mem_append_left _ (mem_initialStorage hindex)
  induction hpath with
  | entry hentry => exact hcalled ⟨hentry, Relation.ReflTransGen.refl⟩ h
  | @step id target path hpath hedge ih =>
      have hreach := exists_path_iff.mp ⟨path, hpath⟩
      have hreach' := hreach.next hedge
      by_cases hforward : target = function.entry
      · subst hforward
        exact hcalled hreach' h
      · rw [(fixedPointOf_solves hfacts hreach').1,
          mem_incomingFacts hforward hreach' ⟨id, hreach, hedge⟩] at h
        have hleaves := h id hreach hedge
        rw [(fixedPointOf_solves hfacts hreach).2, mem_transferWrites hnodup] at hleaves
        rw [mem_writtenAlong_snoc]
        exact hleaves.imp ih fun hwritten => hwritten

open Classical in
/-- The storage that every path to a block has written. -/
noncomputable def writtenOnEvery (function : Function) (id : BlockId) :
    Finset (Fin (buildStorageCatalog function).length) :=
  Finset.univ.filter fun index => ∀ path, function.Path id path →
    (buildStorageCatalog function).get index ∈ function.writtenAlong path

theorem mem_writtenOnEvery {index : Fin (buildStorageCatalog function).length} :
    index ∈ writtenOnEvery function id ↔ ∀ path, function.Path id path →
      (buildStorageCatalog function).get index ∈ function.writtenAlong path := by
  simp [writtenOnEvery]

/-- What every path has written on entry, and what it then has on exit. -/
noncomputable def pathFacts (function : Function) (id : BlockId) :
    FlowState (buildStorageCatalog function) :=
  (writtenOnEvery function id,
    transferWrites (buildStorageCatalog function) (function.accessesOf id) (writtenOnEvery function id))

/-- The initialized storage of a call. -/
abbrev calledWith (function : Function) : Finset (Fin (buildStorageCatalog function).length) :=
  (initialStorage (buildStorageCatalog function) function.entry function.initiallyInitialized).1

theorem writtenOnEvery_entry (hentry : function.entry ∈ (controlFlowFor function).blockIds) :
    writtenOnEvery function function.entry ⊆ calledWith function := by
  intro index hindex
  rw [mem_initialStorage_iff (buildStorageCatalog_nodup function)]
  have hcalled := mem_writtenOnEvery.mp hindex [] (.entry hentry)
  simpa [Function.writtenAlong] using hcalled

/-- What the paths define satisfies the equations. -/
theorem pathFacts_evaluate (hreach : (controlFlowFor function).IsReachable id) :
    pathFacts function id ≤ evaluate (buildStorageCatalog function) function.entry
      (analyzeControlFlow (controlFlowFor function)) function.accessesOf (calledWith function)
      (pathFacts function) id := by
  have hnodup := buildStorageCatalog_nodup function
  have hjoin : writtenOnEvery function id ⊆ incomingFacts (buildStorageCatalog function) function.entry
      (analyzeControlFlow (controlFlowFor function)) (calledWith function)
      (fun b => (pathFacts function b).2) id := by
    by_cases hentry : id = function.entry
    · subst hentry
      rw [incomingFacts, if_pos rfl]
      exact writtenOnEvery_entry hreach.1
    · intro index hindex
      rw [mem_incomingFacts hentry hreach (hreach.exists_edge hentry)]
      intro source _ hedge
      show index ∈ transferWrites _ _ _
      rw [mem_transferWrites hnodup]
      by_cases hwritten : (buildStorageCatalog function).get index ∈ writesOf (function.accessesOf source)
      · exact Or.inr hwritten
      · left
        rw [mem_writtenOnEvery]
        intro path hpath
        have hlonger := mem_writtenOnEvery.mp hindex _ (hpath.step hedge)
        exact (mem_writtenAlong_snoc.mp hlonger).resolve_right hwritten
  exact ⟨hjoin, transferWrites_mono hjoin⟩

theorem pathFacts_start (hentry : function.entry ∈ (controlFlowFor function).blockIds) (id : BlockId) :
    pathFacts function id ≤ startFacts (buildStorageCatalog function) function.entry function.accessesOf
      (calledWith function) id := by
  have hjoin : writtenOnEvery function id
      ⊆ (if id = function.entry then calledWith function else Finset.univ) := by
    by_cases hid : id = function.entry
    · subst hid
      rw [if_pos rfl]
      exact writtenOnEvery_entry hentry
    · rw [if_neg hid]
      exact Finset.subset_univ _
  exact ⟨hjoin, transferWrites_mono hjoin⟩

/-- **Initialized on entry is written on every path.** -/
theorem mem_incoming_iff (hfacts : fixedPointOf function steps = some facts)
    (hreach : (controlFlowFor function).IsReachable id) {index : Fin (buildStorageCatalog function).length} :
    index ∈ (facts id).1 ↔ ∀ path, function.Path id path →
      (buildStorageCatalog function).get index ∈ function.writtenAlong path := by
  constructor
  · intro h path hpath
    exact written_of_incoming hfacts hpath h
  · intro h
    have hleast := computeFixedPoint_isLeast (controlFlowFor function) hfacts
    -- in the order of the solver less storage is more
    have hbelow := hleast.least (pathFacts function) (fun node => pathFacts_start hreach.1 node)
      fun node hnode => pathFacts_evaluate (mem_preorder.mp hnode)
    exact (hbelow id).1 (mem_writtenOnEvery.mpr h)

end FixedPoint

/-! ## The sweep -/

section Sweep

variable {catalog : List StorageId} {id : BlockId} {accesses : List AccessPoint}
  {initialized : Finset (Fin catalog.length)} {issue : Issue}

/-- What a read is reported as. -/
abbrev earlyRead (id : BlockId) (access : AccessPoint) (storage : StorageId) : Issue :=
  ⟨.readBeforeInitialization, id, access.instruction, access.terminator, storage, 0⟩

theorem mem_readIssue_iff {access : AccessPoint} {storage : StorageId}
    (hkind : issue.kind = .readBeforeInitialization) :
    issue ∈ readIssue catalog id access initialized storage ↔
      (∃ index, index? catalog storage = some index ∧ index ∉ initialized) ∧
        issue = earlyRead id access storage := by
  unfold readIssue
  cases hindex : index? catalog storage with
  | none =>
      simp only [List.mem_singleton]
      constructor
      · rintro rfl
        cases hkind
      · rintro ⟨⟨_, h, _⟩, _⟩
        cases h
  | some index =>
      by_cases hmem : index ∈ initialized
      · simp [hmem]
      · simp [hmem]

theorem writeIssue_kind {access : AccessPoint} (h : issue ∈ writeIssue catalog id access) :
    issue.kind = .unknownWriteStorage := by
  unfold writeIssue at h
  split at h
  · cases h
  · split at h
    · rw [List.mem_singleton.mp h]
    · cases h

/-- **The reported reads**: those of storage that the accesses before them leave uninitialized. -/
theorem mem_validateAccesses_iff (hkind : issue.kind = .readBeforeInitialization) :
    issue ∈ validateAccesses catalog id initialized accesses ↔
      ∃ before access after storage index, accesses = before ++ access :: after ∧
        storage ∈ access.reads ∧ index? catalog storage = some index ∧ index ∉ initialized ∧
        storage ∉ writesOf before ∧ issue = earlyRead id access storage := by
  induction accesses generalizing initialized with
  | nil => simp [validateAccesses]
  | cons first rest ih =>
      rw [validateAccesses, List.mem_append, List.mem_append, ih, List.mem_flatMap]
      constructor
      · rintro ((⟨storage, hread, hissue⟩ | hissue) | ⟨before, access, after, storage, index, rfl, hread,
          hindex, hmem, hwritten, rfl⟩)
        · obtain ⟨⟨index, hindex, hmem⟩, rfl⟩ := (mem_readIssue_iff hkind).mp hissue
          exact ⟨[], first, rest, storage, index, rfl, hread, hindex, hmem, List.not_mem_nil, rfl⟩
        · rw [writeIssue_kind hissue] at hkind
          cases hkind
        · rw [mem_write, not_or] at hmem
          refine ⟨first :: before, access, after, storage, index, rfl, hread, hindex, hmem.1, ?_, rfl⟩
          intro hcontra
          rcases List.mem_filterMap.mp hcontra with ⟨other, hother, heq⟩
          rcases List.mem_cons.mp hother with rfl | hother
          · exact hmem.2 (by rw [heq]; exact hindex)
          · exact hwritten (List.mem_filterMap.mpr ⟨other, hother, heq⟩)
      · rintro ⟨before, access, after, storage, index, hsplit, hread, hindex, hmem, hwritten, rfl⟩
        cases before with
        | nil =>
            obtain ⟨rfl, rfl⟩ := List.cons.inj hsplit
            exact Or.inl (Or.inl ⟨storage, hread, (mem_readIssue_iff rfl).mpr ⟨⟨index, hindex, hmem⟩, rfl⟩⟩)
        | cons other before =>
            obtain ⟨rfl, rfl⟩ := List.cons.inj hsplit
            refine Or.inr ⟨before, access, after, storage, index, rfl, hread, hindex, ?_, ?_, rfl⟩
            · rw [mem_write, not_or]
              refine ⟨hmem, fun hwrite => ?_⟩
              rw [Option.bind_eq_some_iff] at hwrite
              obtain ⟨written, hwrite, hwritten'⟩ := hwrite
              have hsame := index?_inj hwritten' hindex
              subst hsame
              exact hwritten (List.mem_filterMap.mpr ⟨first, List.mem_cons_self, hwrite⟩)
            · intro hcontra
              obtain ⟨access', haccess', heq⟩ := List.mem_filterMap.mp hcontra
              exact hwritten (List.mem_filterMap.mpr ⟨access', List.mem_cons_of_mem _ haccess', heq⟩)

end Sweep

/-! ## The answer -/

section Answer

variable {function : Function} {steps : Nat} {facts : BlockId → FlowState (buildStorageCatalog function)}
  {id : BlockId} {storage : StorageId}

theorem mem_visible_iff {bits : Finset (Fin (buildStorageCatalog function).length)} {initialized : Prop}
    (h : ∀ index, (buildStorageCatalog function).get index = storage → (index ∈ bits ↔ initialized)) :
    storage ∈ visibleStorage (buildStorageCatalog function) bits ↔
      storage ∈ function.declarations ∧ initialized := by
  by_cases hdeclared : storage ∈ buildStorageCatalog function
  · obtain ⟨index, rfl⟩ := List.mem_iff_get.mp hdeclared
    rw [mem_visibleStorage (buildStorageCatalog_nodup function), h index rfl]
    exact (and_iff_right (mem_buildStorageCatalog.mp hdeclared)).symm
  · constructor
    · exact fun h => absurd ((visibleStorage_sublist _ _).subset h) hdeclared
    · exact fun h => absurd (mem_buildStorageCatalog.mpr h.1) hdeclared

theorem mem_visible_entry (hfacts : fixedPointOf function steps = some facts)
    (hreach : (controlFlowFor function).IsReachable id) :
    storage ∈ visibleStorage (buildStorageCatalog function) (facts id).1 ↔
      storage ∈ function.declarations ∧
        ∀ path, function.Path id path → storage ∈ function.writtenAlong path := by
  refine mem_visible_iff fun index heq => ?_
  rw [← heq, mem_incoming_iff hfacts hreach]

theorem mem_visible_exit (hfacts : fixedPointOf function steps = some facts)
    (hreach : (controlFlowFor function).IsReachable id) :
    storage ∈ visibleStorage (buildStorageCatalog function) (facts id).2 ↔
      storage ∈ function.declarations ∧
        ((∀ path, function.Path id path → storage ∈ function.writtenAlong path) ∨
          storage ∈ writesOf (function.accessesOf id)) := by
  refine mem_visible_iff fun index heq => ?_
  rw [← heq, (fixedPointOf_solves hfacts hreach).2, mem_transferWrites (buildStorageCatalog_nodup function),
    mem_incoming_iff hfacts hreach]

theorem visibleStorage_ascending (function : Function)
    (bits : Finset (Fin (buildStorageCatalog function).length)) :
    (visibleStorage (buildStorageCatalog function) bits).Pairwise (· ≤ ·) ∧
      (visibleStorage (buildStorageCatalog function) bits).Nodup :=
  ⟨(sortedUnique_ascending _).sublist (visibleStorage_sublist _ _),
    (buildStorageCatalog_nodup function).sublist (visibleStorage_sublist _ _)⟩

/-- The reads reported by the sweep are those that some path reaches too early. -/
theorem readsEarly_iff (hfacts : fixedPointOf function steps = some facts) {issue : Issue}
    (hkind : issue.kind = .readBeforeInitialization) :
    (∃ id, (controlFlowFor function).IsReachable id ∧
      issue ∈ validateAccesses (buildStorageCatalog function) id (facts id).1 (function.accessesOf id)) ↔
      function.ReadsEarly issue := by
  constructor
  · rintro ⟨id, hreach, hissue⟩
    obtain ⟨before, access, after, storage, index, hsplit, hread, hindex, hmem, hwritten, rfl⟩ :=
      (mem_validateAccesses_iff hkind).mp hissue
    have hget := get_of_index? hindex
    rw [mem_incoming_iff hfacts hreach, hget] at hmem
    push Not at hmem
    obtain ⟨path, hpath, hearly⟩ := hmem
    have hdeclared : storage ∈ buildStorageCatalog function := by
      rw [← hget]
      exact List.get_mem _ _
    exact ⟨id, path, before, access, after, storage, hpath, hsplit, hread,
      mem_buildStorageCatalog.mp hdeclared, hearly, hwritten, rfl⟩
  · rintro ⟨id, path, before, access, after, storage, hpath, hsplit, hread, hdeclared, hearly, hwritten,
      rfl⟩
    have hreach := exists_path_iff.mp ⟨path, hpath⟩
    obtain ⟨index, hindex⟩ := index?_isSome (mem_buildStorageCatalog.mpr hdeclared)
    refine ⟨id, hreach, (mem_validateAccesses_iff hkind).mpr
      ⟨before, access, after, storage, index, hsplit, hread, hindex, fun hmem => hearly ?_, hwritten, rfl⟩⟩
    rw [mem_incoming_iff hfacts hreach, get_of_index? hindex] at hmem
    exact hmem path hpath

/-- Reports of other kinds are not about early reads. -/
theorem other_issues_kind {issue : Issue}
    (h : issue ∈ duplicateDeclarations function.entry [] function.declarations
        ++ (analyzeControlFlow (controlFlowFor function)).issues.map (controlFlowIssue function)
        ++ (initialStorage (buildStorageCatalog function) function.entry
          function.initiallyInitialized).2) :
    issue.kind ≠ .readBeforeInitialization := by
  rcases List.mem_append.mp h with h | h
  · rcases List.mem_append.mp h with h | h
    · have hduplicate : ∀ {unique declarations : List StorageId},
          issue ∈ duplicateDeclarations function.entry unique declarations →
            issue.kind = .duplicateDeclaration := by
        intro unique declarations h
        induction declarations generalizing unique with
        | nil => cases h
        | cons storage rest ih =>
            unfold duplicateDeclarations at h
            split at h
            · rcases List.mem_cons.mp h with rfl | h
              · rfl
              · exact ih h
            · exact ih h
      rw [hduplicate h]
      simp
    · obtain ⟨source, _, rfl⟩ := List.mem_map.mp h
      unfold controlFlowIssue
      cases hkind : source.kind <;> simp
  · have hinitial : ∀ {initialized : List StorageId},
        issue ∈ (initialStorage (buildStorageCatalog function) function.entry initialized).2 →
          issue.kind = .unknownInitialStorage := by
      intro initialized h
      induction initialized with
      | nil => cases h
      | cons storage rest ih =>
          unfold initialStorage at h
          dsimp only at h
          split at h
          · rcases List.mem_cons.mp h with rfl | h
            · rfl
            · exact ih h
          · exact ih h
    rw [hinitial h]
    simp

/-- The result that a fixed point gives. -/
def resultOf (function : Function) (facts : BlockId → FlowState (buildStorageCatalog function)) : Result where
  issues := duplicateDeclarations function.entry [] function.declarations
    ++ (analyzeControlFlow (controlFlowFor function)).issues.map (controlFlowIssue function)
    ++ (initialStorage (buildStorageCatalog function) function.entry function.initiallyInitialized).2
    ++ (analyzeControlFlow (controlFlowFor function)).preorder.flatMap fun block =>
      validateAccesses (buildStorageCatalog function) block (facts block).1 (function.accessesOf block)
  facts := buildFacts (buildStorageCatalog function) (analyzeControlFlow (controlFlowFor function)) facts

theorem analyze_eq (hfacts : fixedPointOf function steps = some facts) :
    analyze function true steps = some (resultOf function facts) := by
  unfold analyze
  rw [hfacts]
  rfl

theorem exists_of_analyze {result : Result} (h : analyze function true steps = some result) :
    ∃ facts, fixedPointOf function steps = some facts ∧ result = resultOf function facts := by
  cases hfacts : fixedPointOf function steps with
  | none =>
      unfold analyze at h
      rw [hfacts] at h
      cases h
  | some facts =>
      rw [analyze_eq hfacts] at h
      exact ⟨facts, rfl, (Option.some.inj h).symm⟩

theorem mem_resultOf_issues (hfacts : fixedPointOf function steps = some facts) {issue : Issue}
    (hkind : issue.kind = .readBeforeInitialization) :
    issue ∈ (resultOf function facts).issues ↔ function.ReadsEarly issue := by
  rw [← readsEarly_iff hfacts hkind]
  show issue ∈ _ ++ _ ↔ _
  rw [List.mem_append, List.mem_flatMap]
  constructor
  · rintro (h | ⟨id, hid, hissue⟩)
    · exact absurd hkind (other_issues_kind h)
    · exact ⟨id, mem_preorder.mp hid, hissue⟩
  · rintro ⟨id, hid, hissue⟩
    exact Or.inr ⟨id, mem_preorder.mpr hid, hissue⟩

/-- The record of a block. -/
theorem mem_resultOf_facts {record : BlockFacts} (h : record ∈ (resultOf function facts).facts) :
    record.block ∈ (controlFlowFor function).blockIds ∧
      (record.reachable = true ↔ (controlFlowFor function).IsReachable record.block) ∧
      (record.reachable = true →
        record.initializedOnEntry = visibleStorage (buildStorageCatalog function) (facts record.block).1) := by
  obtain ⟨source, hsource, rfl⟩ := List.mem_map.mp h
  obtain ⟨id, hid, rfl⟩ := List.mem_map.mp hsource
  refine ⟨hid, reachable_blockFacts, fun hreachable => ?_⟩
  show (if _ then _ else _) = _
  rw [if_pos hreachable]

end Answer

/-! ## The listing of the function -/

section Relisting

variable {function relisted : Function}

/-- The same function with its storage, its blocks, and the edges of each block, in another order. -/
def Relists (function relisted : Function) : Prop :=
  relisted.entry = function.entry ∧ function.declarations.Perm relisted.declarations ∧
    function.initiallyInitialized.Perm relisted.initiallyInitialized ∧
    ∃ blocks, function.blocks.Perm blocks ∧
      List.Forall₂ (fun block other => other.id = block.id ∧ other.accesses = block.accesses ∧
        block.successors.Perm other.successors) blocks relisted.blocks

section Relisted

variable (h : Relists function relisted)

include h

theorem Relists.findBlock (hnodup : (function.blocks.map Block.id).Nodup) (id : BlockId) :
    (function.findBlock id = none ∧ relisted.findBlock id = none) ∨
      ∃ block other, function.findBlock id = some block ∧ relisted.findBlock id = some other ∧
        other.id = block.id ∧ other.accesses = block.accesses ∧
        block.successors.Perm other.successors := by
  obtain ⟨_, _, _, blocks, hperm, hrelated⟩ := h
  exact find?_relisted Block.id (fun _ _ hrelated => hrelated.1) hperm hrelated hnodup id

theorem Relists.accessesOf
    (hnodup : (function.blocks.map Block.id).Nodup) : relisted.accessesOf = function.accessesOf := by
  funext id
  unfold Function.accessesOf
  rcases h.findBlock hnodup id with ⟨hnone, hnone'⟩ | ⟨block, other, hsome, hsome', _, haccesses, _⟩
  · rw [hnone, hnone']
  · rw [hsome, hsome']
    exact haccesses

theorem Relists.controlFlow : ControlFlowGraph.Relists (controlFlowFor function) (controlFlowFor relisted) := by
  obtain ⟨hentry, _, _, blocks, hperm, hrelated⟩ := h
  refine ⟨hentry, _, hperm.map _, ?_⟩
  unfold controlFlowFor
  rw [List.forall₂_map_left_iff, List.forall₂_map_right_iff]
  exact hrelated.imp fun _ _ hrelated => ⟨hrelated.1, hrelated.2.2⟩

theorem Relists.sameEdges (hnodup : (function.blocks.map Block.id).Nodup) :
    SameEdges (controlFlowFor function) (controlFlowFor relisted) := by
  refine h.controlFlow.sameEdges ?_
  unfold controlFlowFor
  rw [List.map_map]
  exact hnodup

theorem Relists.path_iff (hnodup : (function.blocks.map Block.id).Nodup)
    (id : BlockId) (path : List BlockId) : relisted.Path id path ↔ function.Path id path := by
  have hsame := h.sameEdges hnodup
  constructor
  · intro hpath
    induction hpath with
    | entry hentry =>
        rw [h.1, h.controlFlow.blockIds] at hentry
        rw [h.1]
        exact .entry hentry
    | step _ hedge ih => exact ih.step ((hsame.validSuccessors _ _).mp hedge)
  · intro hpath
    induction hpath with
    | entry hentry =>
        rw [← h.1, ← h.controlFlow.blockIds] at hentry
        rw [← h.1]
        exact .entry hentry
    | step _ hedge ih => exact ih.step ((hsame.validSuccessors _ _).mpr hedge)

theorem Relists.mem_writtenAlong
    (hnodup : (function.blocks.map Block.id).Nodup) (path : List BlockId) (storage : StorageId) :
    storage ∈ relisted.writtenAlong path ↔ storage ∈ function.writtenAlong path := by
  unfold Function.writtenAlong
  rw [h.accessesOf hnodup, List.mem_append, List.mem_append, h.2.2.1.mem_iff]

theorem Relists.readsEarly_iff (hnodup : (function.blocks.map Block.id).Nodup) (issue : Issue) :
    relisted.ReadsEarly issue ↔ function.ReadsEarly issue := by
  unfold Function.ReadsEarly
  simp only [h.path_iff hnodup, h.accessesOf hnodup, h.mem_writtenAlong hnodup, h.2.1.mem_iff]

theorem Relists.facts_eq (hnodup : (function.blocks.map Block.id).Nodup)
    {steps steps' : Nat} {facts : BlockId → FlowState (buildStorageCatalog function)}
    {facts' : BlockId → FlowState (buildStorageCatalog relisted)}
    (hfacts : fixedPointOf function steps = some facts) (hfacts' : fixedPointOf relisted steps' = some facts') :
    (resultOf relisted facts').facts = (resultOf function facts).facts := by
  have hsame := h.sameEdges hnodup
  show List.map _ (analyzeControlFlow (controlFlowFor relisted)).facts
    = List.map _ (analyzeControlFlow (controlFlowFor function)).facts
  rw [hsame.facts_eq]
  refine List.map_congr_left fun record hrecord => ?_
  obtain ⟨id, _, rfl⟩ := List.mem_map.mp hrecord
  by_cases hreachable : ((controlFlowFor function).blockFacts id).reachable = true
  · have hreach := reachable_blockFacts.mp hreachable
    have hreach' := (hsame.isReachable_iff id).mpr hreach
    have hentry : visibleStorage (buildStorageCatalog relisted) (facts' id).1
        = visibleStorage (buildStorageCatalog function) (facts id).1 := by
      refine eq_of_ascending (visibleStorage_ascending _ _).1 (visibleStorage_ascending _ _).1
        (visibleStorage_ascending _ _).2 (visibleStorage_ascending _ _).2 fun storage => ?_
      rw [mem_visible_entry hfacts hreach, mem_visible_entry hfacts' hreach']
      simp only [h.path_iff hnodup, h.mem_writtenAlong hnodup, h.2.1.mem_iff]
    have hexit : visibleStorage (buildStorageCatalog relisted) (facts' id).2
        = visibleStorage (buildStorageCatalog function) (facts id).2 := by
      refine eq_of_ascending (visibleStorage_ascending _ _).1 (visibleStorage_ascending _ _).1
        (visibleStorage_ascending _ _).2 (visibleStorage_ascending _ _).2 fun storage => ?_
      rw [mem_visible_exit hfacts hreach, mem_visible_exit hfacts' hreach']
      simp only [h.path_iff hnodup, h.mem_writtenAlong hnodup, h.2.1.mem_iff, h.accessesOf hnodup]
    rw [if_pos hreachable, if_pos hreachable, if_pos hreachable, if_pos hreachable]
    show (⟨_, _, visibleStorage _ (facts' id).1, visibleStorage _ (facts' id).2⟩ : BlockFacts)
      = ⟨_, _, visibleStorage _ (facts id).1, visibleStorage _ (facts id).2⟩
    rw [hentry, hexit]
  · rw [if_neg hreachable, if_neg hreachable, if_neg hreachable, if_neg hreachable]

end Relisted

end Relisting

/-- **Definite initialization is what the paths define.** The analysis of a function ends with one result.
The incoming set of a reachable block is the declared storage that every path from the entry has written;
a read is reported exactly if some path reaches it without a write of its declared storage; and a function
whose blocks have distinct identities has this result however its storage, blocks and edges are listed. -/
theorem analyze_exact (function : Function) :
    ∃ result, (∃ enough, ∀ steps ≥ enough, analyze function true steps = some result) ∧
      (∀ id, (∃ path, function.Path id path) → ∃ record ∈ result.facts, record.block = id) ∧
      (∀ record ∈ result.facts,
        (record.reachable = true ↔ ∃ path, function.Path record.block path) ∧
        (record.reachable = true → ∀ storage, storage ∈ record.initializedOnEntry ↔
          storage ∈ function.declarations ∧
            ∀ path, function.Path record.block path → storage ∈ function.writtenAlong path)) ∧
      (∀ issue, issue.kind = .readBeforeInitialization →
        (issue ∈ result.issues ↔ function.ReadsEarly issue)) ∧
      ((function.blocks.map Block.id).Nodup → ∀ relisted, Relists function relisted →
        ∀ steps other, analyze relisted true steps = some other →
          other.facts = result.facts ∧
            ∀ issue, issue.kind = .readBeforeInitialization →
              (issue ∈ other.issues ↔ issue ∈ result.issues)) := by
  obtain ⟨enough, hended⟩ := fixedPointOf_isSome function
  obtain ⟨facts, hfacts⟩ := hended enough (le_refl enough)
  have hresult : ∀ steps ≥ enough, analyze function true steps = some (resultOf function facts) := by
    intro steps hsteps
    obtain ⟨facts', hfacts'⟩ := hended steps hsteps
    have hleast := computeFixedPoint_isLeast (controlFlowFor function) hfacts
    have hleast' := computeFixedPoint_isLeast (controlFlowFor function) hfacts'
    have hsame : facts' = facts := @IsLeastSolution.unique _ (FlowState _)ᵒᵈ _ _ _ _ _ _ hleast' hleast
    rw [analyze_eq hfacts', hsame]
  refine ⟨resultOf function facts, ⟨enough, hresult⟩, ?_, ?_, ?_, ?_⟩
  · intro id hpath
    have hreach := exists_path_iff.mp hpath
    refine ⟨_, List.mem_map_of_mem (List.mem_map_of_mem hreach.mem_blockIds), rfl⟩
  · intro record hrecord
    obtain ⟨_, hreachable, hentry⟩ := mem_resultOf_facts hrecord
    refine ⟨hreachable.trans exists_path_iff.symm, fun h storage => ?_⟩
    rw [hentry h, mem_visible_entry hfacts (hreachable.mp h)]
  · intro issue hkind
    exact mem_resultOf_issues hfacts hkind
  · intro hnodup relisted hrelists steps other hother
    obtain ⟨facts', hfacts', rfl⟩ := exists_of_analyze hother
    refine ⟨hrelists.facts_eq hnodup hfacts hfacts', fun issue hkind => ?_⟩
    rw [mem_resultOf_issues hfacts hkind, mem_resultOf_issues hfacts' hkind]
    exact hrelists.readsEarly_iff hnodup issue

end Tala.Analysis.DefiniteInitialization
