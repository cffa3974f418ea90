import Tala.Xpp.VerifierFacts

/-!
# `Xpp.VerifierSoundness` — runs of verified functions are safe

The invariant carried along a run (`Invariant`) joins the two analyses: what definite initialization
calls initialized is held, and the tokens of the initialized references are those of some states that
the ownership masks admit. Uninitialized references have no such states, and need none, because they are
not read. `safeAt_of_invariant` reads safety off the invariant, `invariant_step` and `invariant_jump`
carry it over one step, and `verify_sound` is the induction over runs.
-/

namespace Tala.Xpp

open Library.Catalog
open Library Tala.Core Tala.Native Tala.Analysis ControlFlowGraph
open Tala.Analysis.OwnershipFlow (HandleKind HandleState HandleStates liveState Admits)

/-! ## The graph both analyses see -/

def Function.graph (function : Function) : ControlFlowGraph where
  entry := function.entry
  blocks := function.blocks.map fun block =>
    { id := block.id, successors := block.terminator.successors }

section Graph

variable {function : Function} {functions : List Function} {symbols : List SymbolId}
  {storage : StorageCatalog} {steps : Nat} {id : BlockId} {block : Block}

theorem controlFlowFor_adapt (symbols : List SymbolId) (function : Function) :
    OwnershipFlow.controlFlowFor (adapt symbols function) = function.graph := by
  unfold OwnershipFlow.controlFlowFor Function.graph adapt
  rw [List.map_map]
  rfl

theorem controlFlowFor_dataflowFunction (storage : StorageCatalog) (functions : List Function)
    (function : Function) :
    DefiniteInitialization.controlFlowFor (dataflowFunction storage functions function)
      = function.graph := by
  unfold DefiniteInitialization.controlFlowFor Function.graph dataflowFunction
  rw [List.map_map]
  rfl

theorem findBlock_adapt (symbols : List SymbolId) (function : Function) (id : BlockId) :
    (adapt symbols function).findBlock id = (function.findBlock id).map (adaptBlock symbols) := by
  unfold OwnershipFlow.Function.findBlock Function.findBlock adapt
  rw [List.find?_map]
  rfl

theorem findBlock_dataflowFunction (storage : StorageCatalog) (functions : List Function)
    (function : Function) (id : BlockId) :
    (dataflowFunction storage functions function).findBlock id
      = (function.findBlock id).map (flowBlock storage functions) := by
  unfold DefiniteInitialization.Function.findBlock Function.findBlock dataflowFunction
  rw [List.find?_map]
  rfl

theorem mem_of_findBlock (h : function.findBlock id = some block) : block ∈ function.blocks :=
  List.mem_of_find?_eq_some h

theorem findBlock_isSome (h : id ∈ function.blocks.map FlowProgram.Block.id) :
    ∃ block, function.findBlock id = some block := by
  obtain ⟨block, hblock, hid⟩ := List.mem_map.mp h
  rw [← Option.isSome_iff_exists, Function.findBlock, FlowProgram.Program.findBlock, List.find?_isSome]
  exact ⟨block, hblock, by simpa using hid⟩

theorem mem_graph_blockIds : id ∈ function.graph.blockIds ↔ id ∈ function.blocks.map FlowProgram.Block.id := by
  rw [mem_blockIds]
  simp [Function.graph]

/-- A verified terminator leads to blocks of the function. -/
theorem targets_of_verifyTerminator {returnType : NativeType} {terminator : Terminator} {blocks : List BlockId}
    (h : verifyTerminator storage functions blocks returnType terminator = []) :
    ∀ target ∈ terminator.successors, target ∈ blocks := by
  unfold verifyTerminator at h
  unfold FlowProgram.Terminator.successors
  cases hkind : terminator.kind with
  | ret => exact fun _ ht => absurd ht List.not_mem_nil
  | unreachable => exact fun _ ht => absurd ht List.not_mem_nil
  | jump =>
      simp only [hkind, reportWhen_eq_nil] at h
      intro target htarget
      rw [List.mem_singleton.mp htarget]
      simpa using h
  | branch =>
      simp only [hkind] at h
      have htargets := (List.append_eq_nil_iff.mp h).2
      rw [reportWhen_eq_nil] at htargets
      simp only [Bool.or_eq_false_iff, decide_eq_false_iff_not, not_not] at htargets
      intro target htarget
      rcases List.mem_cons.mp htarget with rfl | htarget
      · exact htargets.1
      · rw [List.mem_singleton.mp htarget]
        exact htargets.2

theorem Function.Verified.graph_valid
    (h : function.Verified functions symbols storage steps) :
    (analyzeControlFlow function.graph).issues = [] := by
  rw [issues_eq_nil, mem_graph_blockIds]
  refine ⟨?_, h.entry, ?_⟩
  · have hids : function.graph.blocks.map ControlFlowBlock.id = function.blocks.map FlowProgram.Block.id := by
      rw [Function.graph, List.map_map]
      rfl
    rw [hids]
    exact h.blocks
  · intro record hrecord target htarget
    obtain ⟨block, hblock, rfl⟩ := List.mem_map.mp hrecord
    rw [mem_graph_blockIds]
    exact targets_of_verifyTerminator (h.terminators block hblock) target htarget

theorem Function.Verified.flows_valid (h : function.Verified functions symbols storage steps) :
    (analyzeControlFlow (DefiniteInitialization.controlFlowFor (dataflowFunction storage functions function))).issues
        = [] ∧
      (analyzeControlFlow (OwnershipFlow.controlFlowFor (adapt symbols function))).issues = [] := by
  rw [controlFlowFor_dataflowFunction, controlFlowFor_adapt]
  exact ⟨h.graph_valid, h.graph_valid⟩

end Graph

/-! ## The two fixed points -/

/-- What is initialized around the blocks of a function, as definite initialization computes it. -/
abbrev Initializations (storage : StorageCatalog) (functions : List Function) (function : Function) :=
  BlockId → DefiniteInitialization.FlowState
    (DefiniteInitialization.buildStorageCatalog (dataflowFunction storage functions function))

/-- The masks around the blocks of a function, as ownership flow computes them. -/
abbrev Masks (symbols : List SymbolId) (function : Function) :=
  BlockId → OwnershipFlow.FlowState (OwnershipFlow.buildHandleCatalog (adapt symbols function))

/-- The fixed points of a verified function, without findings in the blocks that can be reached. -/
structure Function.Flows (function : Function) (functions : List Function) (symbols : List SymbolId)
    (storage : StorageCatalog) (steps : Nat) (inits : Initializations storage functions function)
    (owns : Masks symbols function) : Prop where
  initialized : DefiniteInitialization.fixedPointOf (dataflowFunction storage functions function) steps
    = some inits
  owned : OwnershipFlow.fixedPointOf (adapt symbols function) steps = some owns
  reads : ∀ id block, function.graph.IsReachable id → function.findBlock id = some block →
    ∀ issue ∈ DefiniteInitialization.validateAccesses _ id (inits id).1
      (flowBlock storage functions block).accesses, issue.kind ≠ .readBeforeInitialization
  uses : ∀ id block, function.graph.IsReachable id → function.findBlock id = some block →
    ∀ issue ∈ OwnershipFlow.validateActions id (owns id).1 (adaptBlock symbols block).actions,
      ¬ OwnershipFlow.isRequirementKind issue.kind

theorem isRequirementKind_of_translate {function : SymbolId} {issue : OwnershipFlow.Issue}
    (h : translate function issue = none) : ¬ OwnershipFlow.isRequirementKind issue.kind := by
  unfold translate at h
  rintro (hkind | hkind | hkind) <;> simp [hkind] at h

variable {function : Function} {functions : List Function}

theorem Function.Verified.flows {symbols : List SymbolId} {storage : StorageCatalog} {steps : Nat}
    (h : function.Verified functions symbols storage steps) :
    ∃ inits owns, function.Flows functions symbols storage steps inits owns := by
  obtain ⟨initialized, hinitialized, hreads⟩ := h.initialized
  obtain ⟨inits, hinits, rfl⟩ := Option.map_eq_some_iff.mp hinitialized
  obtain ⟨owned, howned, huses⟩ := h.owned
  rw [OwnershipFlow.analyze_eq] at howned
  obtain ⟨owns, howns, rfl⟩ := Option.map_eq_some_iff.mp howned
  refine ⟨inits, owns, hinits, howns, ?_, ?_⟩
  · intro id block hreach hblock issue hissue
    refine hreads issue (List.mem_append_right _ (List.mem_flatMap.mpr ⟨id, ?_, ?_⟩))
    · rw [controlFlowFor_dataflowFunction]
      exact mem_preorder.mpr hreach
    · rw [DefiniteInitialization.Function.accessesOf, findBlock_dataflowFunction, hblock]
      exact hissue
  · intro id block hreach hblock issue hissue
    refine isRequirementKind_of_translate
      (huses issue (List.mem_append_right _ (List.mem_flatMap.mpr ⟨id, ?_, ?_⟩)))
    · rw [controlFlowFor_adapt]
      exact mem_preorder.mpr hreach
    · have hfound : (adapt symbols function).findBlock id = some (adaptBlock symbols block) := by
        rw [findBlock_adapt, hblock]
        rfl
      rw [OwnershipFlow.actionsOf_eq hfound]
      exact hissue

/-! ## The invariant -/

/-- The storage that is initialized before an instruction of a block. -/
def KnownBefore {storage : StorageCatalog} {functions : List Function} {function : Function}
    (inits : Initializations storage functions function) (id : BlockId) (block : Block) (index : Nat)
    (symbol : SymbolId) : Prop :=
  ∃ position ∈ DefiniteInitialization.transferWrites _
    ((flowBlock storage functions block).accesses.take index) (inits id).1,
    (DefiniteInitialization.buildStorageCatalog
      (dataflowFunction storage functions function)).get position = symbol

/-- The actions of the first instructions of a block. -/
def actionsBefore (symbols : List SymbolId) (block : Block) (index : Nat) :
    List OwnershipFlow.Action :=
  (block.instructions.zipIdx.take index).flatMap fun p => appendInstruction symbols p.2 p.1

/-- The invariant of a run. The tokens of initialized references are those of some admitted states;
about the others the analysis says nothing. -/
structure Invariant {storage : StorageCatalog} {functions : List Function} {function : Function}
    {symbols : List SymbolId} (inits : Initializations storage functions function)
    (owns : Masks symbols function) (point : Point) (block : Block) : Prop where
  found : function.findBlock point.block = some block
  reachable : function.graph.IsReachable point.block
  bound : point.index ≤ block.instructions.length
  typed : ∀ symbol type, point.state.held symbol = some type → storage.lookup symbol = some type
  parameters : ∀ parameter ∈ function.parameters,
    (point.state.held parameter.symbol.id).isSome = true
  initialized : ∀ symbol, KnownBefore inits point.block block point.index symbol →
    (point.state.held symbol).isSome = true
  owned : ∃ states : HandleStates, Admits (OwnershipFlow.transfer
      (actionsBefore symbols block point.index) (owns point.block).1) states ∧
    ∀ symbol type, KnownBefore inits point.block block point.index symbol →
      storage.lookup symbol = some type → isAarcType type = true →
      states symbol = point.state.token symbol ∧ point.state.token symbol ≠ .absent

/-! ## Reading -/

variable {index : Nat}

theorem split_at {α : Type} {l : List α} {a : α} (h : l[index]? = some a) :
    l = l.take index ++ a :: l.drop (index + 1) := by
  obtain ⟨hlt, rfl⟩ := List.getElem?_eq_some_iff.mp h
  rw [← List.drop_eq_getElem_cons hlt, List.take_append_drop]

section Reading

variable {function : Function} {functions : List Function} {symbols : List SymbolId} {storage : StorageCatalog}
  {steps : Nat} {inits : Initializations storage functions function} {owns : Masks symbols function}
  {point : Point} {block : Block} {instruction : Instruction} {type : NativeType} {operand : Operand}
  {id : SymbolId}

/-- The accesses of a block: one for every instruction, then the terminator. -/
theorem accesses_instruction (h : block.instructions[index]? = some instruction) :
    (flowBlock storage functions block).accesses[index]?
      = some (instructionAccess storage functions index instruction) := by
  have hlt : index < block.instructions.length := (List.getElem?_eq_some_iff.mp h).1
  show (_ ++ _)[index]? = _
  rw [List.getElem?_append_left (by simpa using hlt), List.getElem?_map, List.getElem?_zipIdx, h]
  simp

theorem accesses_terminator (block : Block) :
    (flowBlock storage functions block).accesses[block.instructions.length]?
      = some (terminatorAccess storage functions block) := by
  show (_ ++ _)[block.instructions.length]? = _
  rw [List.getElem?_append_right (by simp)]
  simp

variable {symbol : SymbolId}

theorem symbol_of_local? {name : SymbolId}
    (h : (Operand.symbol type symbol).local? functions = some name) : symbol = name := by
  unfold Operand.local? at h
  simp only at h
  split at h
  · cases h
  · exact Option.some.inj h

/-- A local of a verified operand is declared with the type of the operand. -/
theorem lookup_of_verifyOperand
    (h : verifyOperand storage functions operand = []) (hlocal : operand.local? functions = some id)
    (hunshared : operand.Unshared functions) :
    ∃ type, operand = .symbol type id ∧ id ≠ 0 ∧ findFunction functions id = none ∧
      storage.lookup id = some type := by
  cases operand with
  | literal type payload => cases hlocal
  | symbol type name =>
      have hfunction := hunshared id hlocal
      obtain rfl := symbol_of_local? hlocal
      unfold verifyOperand at h
      by_cases hzero : name = 0
      · simp [hzero] at h
      simp only [if_neg hzero, hfunction] at h
      refine ⟨type, rfl, hzero, hfunction, ?_⟩
      cases hstored : storage.lookup name with
      | none =>
          rw [hstored] at h
          split at h <;> cases h
      | some stored =>
          rw [hstored] at h
          have hsame : stored = type := by
            split at h <;> simpa using h
          rw [hsame]

variable {access : DefiniteInitialization.AccessPoint}

/-- **A local that is read has been initialized on this run.** -/
theorem known_of_read (hflows : function.Flows functions symbols storage steps inits owns)
    (hinvariant : Invariant inits owns point block)
    (haccess : (flowBlock storage functions block).accesses[point.index]? = some access)
    (hread : id ∈ access.reads) (hstored : storage.lookup id = some type) :
    KnownBefore inits point.block block point.index id := by
  have hdeclared : id ∈ (dataflowFunction storage functions function).declarations := by
    unfold dataflowFunction
    rw [List.mem_insertionSort, List.mem_map]
    obtain ⟨before, after, hsplit, _⟩ := List.lookup_eq_some_iff.mp hstored
    refine ⟨(id, type), ?_, rfl⟩
    rw [hsplit]
    exact List.mem_append_right _ List.mem_cons_self
  obtain ⟨position, hget, hmem⟩ := DefiniteInitialization.read_initialized (split_at haccess) hread
    hdeclared (hflows.reads point.block block hinvariant.reachable hinvariant.found)
  exact ⟨position, hmem, hget⟩

theorem performAll_append (actions later : List OwnershipFlow.Action) (states : HandleStates) :
    OwnershipFlow.performAll (actions ++ later) states
      = OwnershipFlow.performAll later (OwnershipFlow.performAll actions states) :=
  List.foldl_append

/-- Observations change no state. -/
theorem performAll_observe {actions : List OwnershipFlow.Action}
    (h : ∀ action ∈ actions, action.kind = .observe) (states : HandleStates) :
    OwnershipFlow.performAll actions states = states := by
  induction actions generalizing states with
  | nil => rfl
  | cons first rest ih =>
      obtain ⟨hfirst, hrest⟩ := List.forall_mem_cons.mp h
      have hperform : first.perform states = states := by
        unfold OwnershipFlow.Action.perform OwnershipFlow.Action.performOn
        rw [hfirst]
        exact Function.update_eq_self _ _
      show OwnershipFlow.performAll rest (first.perform states) = states
      rw [hperform]
      exact ih hrest states

/-- **A reference that is used holds a live token of the expected representation.** -/
theorem live_of_action (hflows : function.Flows functions symbols storage steps inits owns)
    (hinvariant : Invariant inits owns point block) {before after : List OwnershipFlow.Action}
    {action : OwnershipFlow.Action} (hactions : (adaptBlock symbols block).actions
      = (actionsBefore symbols block point.index ++ before) ++ action :: after)
    (hkind : action.kind = .observe ∨ action.kind = .consume) (hzero : action.handle ≠ 0)
    (hbefore : ∀ states, OwnershipFlow.performAll before states = states)
    (hknown : KnownBefore inits point.block block point.index action.handle)
    (hstored : storage.lookup action.handle = some type) (haarc : isAarcType type = true) :
    point.state.token action.handle = liveState action.expected := by
  obtain ⟨states, hadmits, hsame⟩ := hinvariant.owned
  obtain ⟨htoken, hpresent⟩ := hsame action.handle type hknown hstored haarc
  have hblock : (adapt symbols function).findBlock point.block = some (adaptBlock symbols block) := by
    rw [findBlock_adapt, hinvariant.found]
    rfl
  obtain ⟨index, hget, hmet⟩ := OwnershipFlow.requirement_met hblock hactions hkind hzero
    (hflows.uses point.block block hinvariant.reachable hinvariant.found)
  have hmem : states action.handle ∈ OwnershipFlow.transfer
      (actionsBefore symbols block point.index ++ before) (owns point.block).1 index := by
    have hlater : OwnershipFlow.performAll before states _ ∈ OwnershipFlow.transfer before _ index :=
      OwnershipFlow.transfer_admits (OwnershipFlow.buildHandleCatalog_nodup (adapt symbols function))
        hadmits index
    rw [hbefore, hget] at hlater
    rw [OwnershipFlow.transfer, List.foldl_append]
    exact hlater
  rcases hmet with hexpected | habsent
  · rw [← htoken]
    exact OwnershipFlow.mem_stateFor.mp (hexpected hmem)
  · refine absurd ?_ hpresent
    rw [← htoken]
    exact Finset.mem_singleton.mp (habsent hmem)

/-! ## The actions of a block -/

theorem zipIdx_getElem (h : block.instructions[index]? = some instruction) :
    block.instructions.zipIdx[index]? = some (instruction, index) := by
  rw [List.getElem?_zipIdx, h]
  simp

theorem actionsBefore_succ (h : block.instructions[index]? = some instruction) :
    actionsBefore symbols block (index + 1)
      = actionsBefore symbols block index ++ appendInstruction symbols index instruction := by
  unfold actionsBefore
  rw [List.take_add_one, zipIdx_getElem h, List.flatMap_append]
  simp

theorem actions_instruction (symbols : List SymbolId) (h : block.instructions[index]? = some instruction) :
    ∃ after, (adaptBlock symbols block).actions = actionsBefore symbols block index
      ++ (appendInstruction symbols index instruction ++ after) := by
  refine ⟨(block.instructions.zipIdx.drop (index + 1)).flatMap
    (fun p => appendInstruction symbols p.2 p.1) ++ appendReturn symbols block, ?_⟩
  unfold adaptBlock actionsBefore
  rw [congrArg (List.flatMap _) (split_at (zipIdx_getElem h)), List.flatMap_append,
    List.flatMap_cons]
  simp only [List.append_assoc]

theorem actions_terminator (symbols : List SymbolId) (block : Block) :
    (adaptBlock symbols block).actions
      = actionsBefore symbols block block.instructions.length ++ appendReturn symbols block := by
  unfold adaptBlock actionsBefore
  rw [List.take_of_length_le (by simp)]

/-- The symbols the ownership analysis takes for functions are those the verifier does. -/
def NamesFunctions (symbols : List SymbolId) (functions : List Function) : Prop :=
  ∀ id, id ∈ symbols ↔ id ≠ 0 ∧ (findFunction functions id).isSome = true

theorem handle?_eq (hsymbols : NamesFunctions symbols functions) (hoperand : operand = .symbol type id)
    (hfunction : findFunction functions id = none) (haarc : isAarcType type = true) :
    operand.handle? symbols = some id := by
  have hnot : id ∉ symbols := by
    rw [hsymbols, hfunction]
    simp
  subst hoperand
  simp [Operand.handle?, hnot, haarc]

/-- What the ownership analysis takes for a handle is a local. -/
theorem local?_of_handle? (hsymbols : NamesFunctions symbols functions) (h : operand.handle? symbols = some id)
    (hverified : verifyOperand storage functions operand = []) :
    operand.local? functions = some id ∧ isAarcType operand.type = true := by
  cases operand with
  | literal type payload => cases h
  | symbol type name =>
      have hzero : name ≠ 0 := by
        rintro rfl
        simp [verifyOperand] at hverified
      unfold Operand.handle? at h
      simp only at h
      split at h
      · cases h
      · next hcondition =>
        obtain rfl := Option.some.inj h
        simp only [Bool.or_eq_true, decide_eq_true_eq, Bool.not_eq_true', not_or,
          Bool.not_eq_false] at hcondition
        have hnone : findFunction functions name = none := by
          by_contra hsome
          exact hcondition.1 ((hsymbols name).mpr ⟨hzero, Option.isSome_iff_ne_none.mpr hsome⟩)
        refine ⟨?_, hcondition.2⟩
        simp [Operand.local?, hnone]

/-- An instruction that gives a token back has one operand. -/
theorem single_of_consumes (h : verifyOperation functions instruction = [])
    (hconsumes : instruction.opcode.consumesOwnership = true) :
    ∃ operand, instruction.operands = [operand] ∧ isAarcType operand.type = true ∧
      instruction.effect = .discard ∧ instruction.resultType = .scalar .unit := by
  have hownership : verifyOperation functions instruction = verifyOwnershipOperation instruction := by
    unfold verifyOperation
    cases hopcode : instruction.opcode <;> simp [hopcode, Opcode.consumesOwnership] at hconsumes <;> rfl
  rw [hownership, verifyOwnershipOperation, if_pos hconsumes, List.append_eq_nil_iff,
    reportWhen_eq_nil] at h
  obtain ⟨hoperands, hresult⟩ := h
  simp only [ne_eq, Bool.or_eq_false_iff, decide_eq_false_iff_not, not_not] at hresult
  split at hoperands
  · next operand hsingle =>
    rw [reportWhen_eq_nil] at hoperands
    exact ⟨operand, hsingle, by simpa using hoperands, hresult.1, hresult.2⟩
  · cases hoperands

theorem consumes_isOwnership {opcode : Opcode} (h : opcode.consumesOwnership = true) :
    opcode.isOwnership = true := by
  cases opcode <;> simp_all [Opcode.consumesOwnership, Opcode.isOwnership]

/-- Among the actions of an instruction is the use of every reference it reads, and none of the states
changes before it. -/
theorem use_of_read (index : Nat)
    (hverified : verifyOperation functions instruction = []) (hoperand : operand ∈ instruction.operands)
    (hhandle : operand.handle? symbols = some id) :
    ∃ before action after, appendInstruction symbols index instruction = before ++ action :: after ∧
      (action.kind = .observe ∨ action.kind = .consume) ∧ action.handle = id ∧
      action.expected = instruction.opcode.expectedKind ∧
      ∀ states, OwnershipFlow.performAll before states = states := by
  have hmem : id ∈ instruction.operands.filterMap (Operand.handle? symbols) :=
    List.mem_filterMap.mpr ⟨operand, hoperand, hhandle⟩
  obtain ⟨before, after, hsplit⟩ := List.append_of_mem hmem
  unfold appendInstruction
  simp only
  rw [hsplit, List.map_append, List.map_cons, List.append_assoc, List.cons_append]
  refine ⟨_, _, _, rfl, ?_, rfl, rfl, ?_⟩
  · by_cases hconsumes : (instruction.opcode.isOwnership && instruction.opcode.consumesOwnership) = true
    · exact Or.inr (if_pos hconsumes)
    · exact Or.inl (if_neg hconsumes)
  by_cases hconsumes : instruction.opcode.consumesOwnership = true
  · -- the one operand comes first
    obtain ⟨single, hsingle, _⟩ := single_of_consumes hverified hconsumes
    have hlength := List.length_filterMap_le (Operand.handle? symbols) instruction.operands
    rw [hsplit, hsingle] at hlength
    have hempty : before = [] := by
      rw [← List.length_eq_zero_iff]
      simp only [List.length_append, List.length_cons, List.length_nil] at hlength
      omega
    rw [hempty]
    exact fun _ => rfl
  · refine performAll_observe fun action haction => ?_
    obtain ⟨symbol, _, rfl⟩ := List.mem_map.mp haction
    simp [hconsumes]

/-! ## Safe reads -/

/-- A symbol that denotes a function is used under the signature of the function. -/
theorem direct_of_verifyOperand (h : verifyOperand storage functions (.symbol type id) = [])
    (hlocal : (Operand.symbol type id).local? functions = none) :
    ∃ direct, findFunction functions id = some direct ∧ type = direct.type := by
  unfold Operand.local? at hlocal
  simp only at hlocal
  split at hlocal
  · next hcondition =>
    rw [Bool.and_eq_true] at hcondition
    obtain ⟨direct, hdirect⟩ := Option.isSome_iff_exists.mp hcondition.2
    refine ⟨direct, hdirect, ?_⟩
    unfold verifyOperand at h
    by_cases hzero : id = 0
    · simp [hzero] at h
    simpa [hzero, hcondition.1, hdirect] using h
  · cases hlocal

/-- **What is read is there**: initialized on this run, of its type and live. -/
theorem read_safe (hverified : function.Verified functions symbols storage steps)
    (hsymbols : NamesFunctions symbols functions)
    (hflows : function.Flows functions symbols storage steps inits owns)
    (hinvariant : Invariant inits owns point block)
    (haccess : (flowBlock storage functions block).accesses[point.index]? = some access)
    {expected : HandleKind} (hoperand : verifyOperand storage functions operand = [])
    (hunshared : operand.Unshared functions)
    (hread : ∀ id ∈ appendStorageRead storage functions operand, id ∈ access.reads)
    (huse : ∀ id, operand.handle? symbols = some id → ∃ before action after,
      (adaptBlock symbols block).actions
        = (actionsBefore symbols block point.index ++ before) ++ action :: after ∧
      (action.kind = .observe ∨ action.kind = .consume) ∧ action.handle = id ∧
      action.expected = expected ∧ ∀ states, OwnershipFlow.performAll before states = states) :
    operand.Safe function functions point.state expected := by
  cases operand with
  | literal type payload =>
      unfold verifyOperand at hoperand
      show validateLiteral payload type = none
      simpa using hoperand
  | symbol type name =>
      cases hlocal : (Operand.symbol type name).local? functions with
      | none =>
          simp only [Operand.Safe, hlocal]
          exact direct_of_verifyOperand hoperand hlocal
      | some id =>
          simp only [Operand.Safe, hlocal]
          obtain ⟨_, hsymbol, hzero, hfunction, hstored⟩ :=
            lookup_of_verifyOperand hoperand hlocal hunshared
          obtain ⟨rfl, rfl⟩ := Operand.symbol.inj hsymbol
          have hknown : KnownBefore inits point.block block point.index name := by
            refine known_of_read hflows hinvariant haccess (hread name ?_) hstored
            simp [appendStorageRead, hfunction, hstored]
          obtain ⟨held, hheld⟩ := Option.isSome_iff_exists.mp (hinvariant.initialized name hknown)
          have htype : held = type :=
            Option.some.inj ((hinvariant.typed name held hheld).symm.trans hstored)
          refine ⟨hverified.declared name type hstored, hheld.trans (congrArg some htype), fun haarc => ?_⟩
          obtain ⟨before, action, after, hactions, hkind, rfl, rfl, hbefore⟩ :=
            huse name (handle?_eq hsymbols rfl hfunction haarc)
          exact live_of_action hflows hinvariant hactions hkind hzero hbefore hknown hstored haarc

/-! ## Operations that fit -/

theorem validateClosure_eq_none {captures parameters others : List NativeType}
    {result returned callable : NativeType} (hdecompose : decompose callable = some (others, returned))
    (h : validateClosure captures parameters result callable = none) :
    parameters = captures ++ others ∧ result = returned := by
  unfold validateClosure at h
  simp only [hdecompose] at h
  split at h
  · cases h
  next hlength =>
  split at h
  · cases h
  next hcaptures =>
  split at h
  · cases h
  split at h
  · cases h
  next hothers =>
  split at h
  · cases h
  next hresult =>
  rw [not_not] at hcaptures hothers hresult
  refine ⟨?_, hresult⟩
  rw [hcaptures, ← hothers]
  simp

theorem closureContractProblem_eq_nil {error : ClosureContractError}
    (h : closureContractProblem error = []) : error = .resultIsNotCallable := by
  cases error <;> simp [closureContractProblem] at h ⊢

theorem closure_fits (hopcode : instruction.opcode = .makeClosure)
    (h : verifyMakeClosure functions instruction = []) (hunchecked : instruction.UncheckedFits) :
    instruction.Fits functions := by
  unfold verifyMakeClosure at h
  simp only [List.append_eq_nil_iff, reportWhen_eq_nil] at h
  obtain ⟨⟨⟨⟨htarget, _⟩, hmodes⟩, hcontract⟩, hcaptures⟩ := h
  simp only [Bool.or_eq_false_iff, decide_eq_false_iff_not, Option.isNone_eq_false_iff,
    Option.isSome_iff_exists] at htarget
  obtain ⟨_, lifted, hlifted⟩ := htarget
  simp only [Instruction.UncheckedFits, hopcode, Option.isSome_iff_exists] at hunchecked
  obtain ⟨⟨others, returned⟩, hdecompose⟩ := hunchecked
  have hnone : validateClosure (instruction.operands.map Operand.type)
      (lifted.parameters.map Parameter.type) lifted.returnType instruction.resultType = none := by
    simp only [hlifted] at hcontract
    cases hvalidate : validateClosure (instruction.operands.map Operand.type)
        (lifted.parameters.map Parameter.type) lifted.returnType instruction.resultType with
    | none => rfl
    | some error =>
        simp only [hvalidate] at hcontract
        rw [closureContractProblem_eq_nil hcontract, validateClosure, hdecompose] at hvalidate
        simp only at hvalidate
        repeat (split at hvalidate; · cases hvalidate)
        cases hvalidate
  obtain ⟨hparameters, hresult⟩ := validateClosure_eq_none hdecompose hnone
  simp only [Instruction.Fits, hopcode]
  refine ⟨lifted, others, hlifted, by rw [hdecompose, hresult], hparameters, by simpa using hmodes, ?_⟩
  intro pair hpair
  have hcapture := List.flatMap_eq_nil_iff.mp hcaptures pair hpair
  rw [reportWhen_eq_nil] at hcapture
  by_cases hstrong : pair.1 = .strongCapture
  · exact Or.inl hstrong
  · exact Or.inr (by simpa [hstrong] using hcapture)

theorem call_fits (hopcode : instruction.opcode = .call)
    (h : verifyCall instruction.operands instruction.resultType = []) : instruction.Fits functions := by
  unfold verifyCall at h
  split at h
  · next type callee arguments hoperands =>
    split at h
    · cases h
    split at h
    · cases h
    · next parameters returned hdecompose =>
      split at h
      · cases h
      · next hlength =>
        obtain ⟨harguments, hresult⟩ := List.append_eq_nil_iff.mp h
        rw [reportWhen_eq_nil, decide_eq_false_iff_not, not_not] at hresult
        rw [not_not] at hlength
        simp only [Instruction.Fits, hopcode]
        refine ⟨type, callee, arguments, parameters, hoperands, by rw [hdecompose, hresult], ?_⟩
        refine List.ext_getElem (by simpa using hlength) fun index hargument hparameter => ?_
        have hargument' : index < arguments.length := by simpa using hargument
        have hpair : (arguments[index], parameters[index]) ∈ List.zip arguments parameters := by
          rw [List.mem_iff_getElem]
          exact ⟨index, by simpa using ⟨hargument', hparameter⟩, List.getElem_zip⟩
        have hsame := List.flatMap_eq_nil_iff.mp harguments _ hpair
        rw [reportWhen_eq_nil, decide_eq_false_iff_not, not_not] at hsame
        rw [List.getElem_map, hsame]
  · cases h

theorem ownership_fits (hopcode : instruction.opcode.isOwnership = true)
    (h : verifyOwnershipOperation instruction = []) : instruction.Fits functions := by
  unfold verifyOwnershipOperation at h
  obtain ⟨hoperands, hresult⟩ := List.append_eq_nil_iff.mp h
  split at hoperands
  · next operand hsingle =>
    rw [reportWhen_eq_nil] at hoperands
    have haarc : isAarcType operand.type = true := by simpa using hoperands
    by_cases hconsumes : instruction.opcode.consumesOwnership = true
    · rw [if_pos hconsumes, reportWhen_eq_nil] at hresult
      simp only [ne_eq, Bool.or_eq_false_iff, decide_eq_false_iff_not, not_not] at hresult
      unfold Instruction.Fits
      cases hkind : instruction.opcode <;> rw [hkind] at hconsumes
      all_goals first
        | exact ⟨hresult.1, hresult.2, operand, hsingle, haarc⟩
        | exact absurd hconsumes (by decide)
    · rw [if_neg hconsumes, reportWhen_eq_nil, hsingle] at hresult
      simp only [ne_eq, List.head?_cons, Option.map_some, Option.some_inj, Bool.or_eq_false_iff,
        decide_eq_false_iff_not, not_not] at hresult
      unfold Instruction.Fits
      cases hkind : instruction.opcode <;> rw [hkind] at hconsumes hopcode
      all_goals first
        | exact ⟨hresult.1, operand, hsingle, haarc, hresult.2.symm⟩
        | exact absurd rfl hconsumes
        | exact absurd hopcode (by decide)
  · cases hoperands

theorem typeIs_fits (hopcode : instruction.opcode = .typeIs)
    (h : verifyTypeIs instruction = []) : instruction.Fits functions := by
  unfold verifyTypeIs at h
  simp only [reportWhen_eq_nil, Bool.not_eq_false'] at h
  split at h
  · next subject identity hoperands =>
    simp only [Bool.and_eq_true, decide_eq_true_eq] at h
    simp only [Instruction.Fits, hopcode]
    exact ⟨h.1.1, subject, identity, hoperands, h.1.2, h.2⟩
  · cases h

theorem runtimeCall_fits (hopcode : instruction.opcode = .runtimeCall)
    (h : verifyRuntimeCall instruction = []) : instruction.Fits functions := by
  unfold verifyRuntimeCall at h
  split at h
  · next hcheck =>
    unfold checkRuntimeCall at hcheck
    split at hcheck
    · cases hcheck
    next named hnamed =>
    split at hcheck
    · cases hcheck
    next harity =>
    split at hcheck
    · cases hcheck
    next harguments =>
    split at hcheck
    · cases hcheck
    next hresult =>
    rw [not_not] at harity hresult
    simp only [Instruction.Fits, hopcode]
    refine ⟨named, hnamed, by simpa using harity, fun pair hpair => ?_, hresult⟩
    simp only [Bool.not_eq_true', Bool.not_eq_false] at harguments
    rw [List.all_eq_true] at harguments
    refine harguments _ ?_
    rw [← List.map_uncurry_zip_eq_zipWith, List.mem_map]
    exact ⟨pair, hpair, rfl⟩
  · cases h

theorem memoize_fits (hopcode : instruction.opcode = .memoize)
    (h : verifyMemoize instruction = []) : instruction.Fits functions := by
  unfold verifyMemoize at h
  simp only [reportWhen_eq_nil, Bool.not_eq_false'] at h
  split at h
  · next callable hoperands =>
    simp only [Bool.and_eq_true, decide_eq_true_eq] at h
    simp only [Instruction.Fits, hopcode]
    exact ⟨callable, hoperands, h.1, h.2⟩
  · cases h

theorem floorDivide_fits (hopcode : instruction.opcode = .floorDivide)
    (h : verifyFloorDivide instruction = []) : instruction.Fits functions := by
  unfold verifyFloorDivide at h
  simp only [reportWhen_eq_nil, Bool.not_eq_false'] at h
  split at h
  · next left right hoperands =>
    simp only [Bool.and_eq_true, decide_eq_true_eq] at h
    simp only [Instruction.Fits, hopcode]
    exact ⟨left, right, hoperands, h.1.1, h.1.2, h.2⟩
  · cases h

/-- **A verified operation fits its types**, those the verifier does not look at aside. -/
theorem fits_of_verifyOperation
    (h : verifyOperation functions instruction = []) (hunchecked : instruction.UncheckedFits) :
    instruction.Fits functions := by
  unfold verifyOperation at h
  by_cases hcall : instruction.opcode = .call
  · rw [if_pos hcall] at h
    exact call_fits hcall h
  rw [if_neg hcall] at h
  by_cases hclosure : instruction.opcode = .makeClosure
  · rw [if_pos hclosure] at h
    exact closure_fits hclosure h hunchecked
  rw [if_neg hclosure] at h
  by_cases hownership : instruction.opcode.isOwnership = true
  · rw [if_pos hownership] at h
    exact ownership_fits hownership h
  rw [if_neg hownership] at h
  by_cases htypeIs : instruction.opcode = .typeIs
  · rw [if_pos htypeIs] at h
    exact typeIs_fits htypeIs h
  rw [if_neg htypeIs] at h
  by_cases hruntime : instruction.opcode = .runtimeCall
  · rw [if_pos hruntime] at h
    exact runtimeCall_fits hruntime h
  rw [if_neg hruntime] at h
  by_cases hmemoize : instruction.opcode = .memoize
  · rw [if_pos hmemoize] at h
    exact memoize_fits hmemoize h
  rw [if_neg hmemoize] at h
  by_cases hfloor : instruction.opcode = .floorDivide
  · rw [if_pos hfloor] at h
    exact floorDivide_fits hfloor h
  rw [if_neg hfloor, reportWhen_eq_nil, decide_eq_false_iff_not, not_not] at h
  -- what is left is checked by its operand count alone
  unfold Instruction.Fits
  cases hopcode : instruction.opcode <;> rw [hopcode] at h
  all_goals first
    | exact ⟨h, hunchecked⟩
    | exact absurd hopcode ‹_›
    | (rw [hopcode] at hownership; exact absurd rfl hownership)

theorem destination_of_verify
    (h : verifyDestination storage instruction = []) (hdiscard : instruction.effect ≠ .discard) :
    instruction.destination ≠ 0 ∧
      storage.lookup instruction.destination = some instruction.resultType := by
  unfold verifyDestination at h
  rw [if_neg hdiscard] at h
  cases hstored : storage.lookup instruction.destination with
  | none =>
      rw [hstored] at h
      cases h
  | some stored =>
      simp only [hstored] at h
      by_cases hzero : instruction.destination = 0
      · rw [if_pos hzero] at h
        cases h
      · rw [if_neg hzero, reportWhen_eq_nil, decide_eq_false_iff_not, not_not] at h
        exact ⟨hzero, congrArg some h⟩

/-! ## Safety from the invariant -/

theorem mem_readsAt (h : operand ∈ block.readsAt index) :
    operand ∈ block.instructions.flatMap Instruction.operands ++ block.terminator.reads := by
  unfold Block.readsAt at h
  split at h
  · next instruction hget =>
    exact List.mem_append_left _ (List.mem_flatMap.mpr ⟨instruction, List.mem_of_getElem? hget, h⟩)
  · exact List.mem_append_right _ h

variable (hverified : function.Verified functions symbols storage steps)
  (hsymbols : NamesFunctions symbols functions)
  (hflows : function.Flows functions symbols storage steps inits owns)
  (hinvariant : Invariant inits owns point block) (hcovered : function.Covered functions point)

include hverified hsymbols hflows hinvariant hcovered

theorem instruction_safe (hget : block.instructions[point.index]? = some instruction) :
    instruction.Safe function functions point.state := by
  have hmem : instruction ∈ block.instructions := List.mem_of_getElem? hget
  have hclean := hverified.instructions block (mem_of_findBlock hinvariant.found) instruction hmem
  unfold verifyInstruction at hclean
  simp only [List.append_eq_nil_iff] at hclean
  obtain ⟨⟨hoperation, hdestination⟩, hoperands⟩ := hclean
  refine ⟨fun operand hoperand => ?_, ?_, ?_⟩
  · refine read_safe hverified hsymbols hflows hinvariant (accesses_instruction hget)
      (List.flatMap_eq_nil_iff.mp hoperands operand hoperand) ?_ ?_ ?_
    · refine hcovered.unshared block hinvariant.found operand ?_
      unfold Block.readsAt
      rw [hget]
      exact hoperand
    · exact fun id hid => List.mem_flatMap.mpr ⟨operand, hoperand, hid⟩
    · intro id hhandle
      obtain ⟨before, action, after, happend, hkind, hname, hexpected, hbefore⟩ :=
        use_of_read point.index hoperation hoperand hhandle
      obtain ⟨rest, hactions⟩ := actions_instruction symbols hget
      refine ⟨before, action, after ++ rest, ?_, hkind, hname, hexpected, hbefore⟩
      rw [hactions, happend]
      simp only [List.append_assoc, List.cons_append]
  · exact fits_of_verifyOperation hoperation (hcovered.fits block hinvariant.found instruction hget)
  · by_cases hdiscard : instruction.effect = .discard
    · exact Or.inl hdiscard
    · obtain ⟨hzero, hstored⟩ := destination_of_verify hdestination hdiscard
      exact Or.inr ⟨hzero, hverified.declared _ _ hstored⟩

theorem terminator_safe (hindex : point.index = block.instructions.length) :
    Terminator.Safe function functions point.state block.terminator := by
  have hclean := hverified.terminators block (mem_of_findBlock hinvariant.found)
  have htargets : ∀ target ∈ block.terminator.successors, (function.findBlock target).isSome = true := by
    intro target htarget
    obtain ⟨found, hfound⟩ := findBlock_isSome (targets_of_verifyTerminator hclean target htarget)
    rw [hfound]
    rfl
  have haccess : (flowBlock storage functions block).accesses[point.index]?
      = some (terminatorAccess storage functions block) := hindex ▸ accesses_terminator block
  have hunshared : ∀ operand ∈ block.terminator.reads, operand.Unshared functions := by
    intro operand hoperand
    refine hcovered.unshared block hinvariant.found operand ?_
    unfold Block.readsAt
    rw [hindex, List.getElem?_eq_none (le_refl _)]
    exact hoperand
  unfold verifyTerminator at hclean
  unfold Terminator.Safe
  unfold FlowProgram.Terminator.reads at hunshared
  cases hkind : block.terminator.kind with
  | unreachable => trivial
  | jump => exact htargets
  | ret =>
      simp only [hkind, List.append_eq_nil_iff, reportWhen_eq_nil, decide_eq_false_iff_not,
        not_not] at hclean hunshared
      obtain ⟨hoperand, htype⟩ := hclean
      refine ⟨read_safe hverified hsymbols hflows hinvariant haccess hoperand
        (hunshared _ List.mem_cons_self) ?_ ?_, htype⟩
      · intro id hid
        simpa [terminatorAccess, hkind] using hid
      · intro id hhandle
        refine ⟨[], ⟨.observe, id, .strong, block.instructions.length, true⟩, [], ?_, Or.inl rfl, rfl,
          rfl, fun _ => rfl⟩
        rw [actions_terminator, hindex, appendReturn, if_pos hkind]
        simp only [hhandle, List.append_nil]
  | branch =>
      simp only [hkind, List.append_eq_nil_iff, reportWhen_eq_nil, decide_eq_false_iff_not,
        not_not] at hclean hunshared
      obtain ⟨⟨hoperand, htype⟩, _⟩ := hclean
      refine ⟨read_safe hverified hsymbols hflows hinvariant haccess hoperand
        (hunshared _ List.mem_cons_self) ?_ ?_, htype, htargets⟩
      · intro id hid
        simpa [terminatorAccess, hkind] using hid
      · intro id hhandle
        have haarc := (local?_of_handle? hsymbols hhandle hoperand).2
        rw [htype] at haarc
        cases haarc

/-- **Nothing goes wrong at a point the invariant holds at.** -/
theorem safeAt_of_invariant : function.SafeAt functions point :=
  ⟨block, hinvariant.found, hinvariant.bound,
    fun _ hget => instruction_safe hverified hsymbols hflows hinvariant hcovered hget,
    terminator_safe hverified hsymbols hflows hinvariant hcovered⟩

end Reading

/-! ## The invariant along a run -/

section Runs

variable {function : Function} {functions : List Function} {symbols : List SymbolId} {storage : StorageCatalog}
  {steps : Nat} {inits : Initializations storage functions function} {owns : Masks symbols function}
  {id : BlockId} {index : Nat} {state : RunState} {block : Block}
  (hverified : function.Verified functions symbols storage steps) (hsymbols : NamesFunctions symbols functions)
  (hflows : function.Flows functions symbols storage steps inits owns) {symbol : SymbolId}
  {states : HandleStates} {target : BlockId}

include hverified hflows in
/-- What the caller supplies is all that is known at the entry. -/
theorem parameter_of_known (h : KnownBefore inits function.entry block 0 symbol) :
    ∃ parameter ∈ function.parameters, parameter.symbol.id = symbol := by
  obtain ⟨position, hposition, hget⟩ := h
  have hvalid := hverified.flows_valid.1
  have hinitial := DefiniteInitialization.entry_initialized hvalid hflows.initialized hposition
  rw [hget] at hinitial
  obtain ⟨parameter, hparameter, hid⟩ := List.mem_map.mp (List.mem_filter.mp hinitial).1
  exact ⟨parameter, hparameter, hid⟩

include hverified hflows in
/-- At the entry the references of the caller are in their admitted states. -/
theorem entry_owned
    (hstrong : ∀ parameter ∈ function.parameters, isAarcType parameter.type = true →
      state.token parameter.symbol.id = .strong) :
    ∃ states : HandleStates, Admits (owns function.entry).1 states ∧
      ∀ symbol type, KnownBefore inits function.entry block 0 symbol →
        storage.lookup symbol = some type → isAarcType type = true →
        states symbol = state.token symbol ∧ state.token symbol ≠ .absent := by
  have hvalid := hverified.flows_valid.2
  refine ⟨fun symbol => if symbol ∈ (adapt symbols function).initialHandles.map
      OwnershipFlow.InitialHandle.handle then .strong else .absent,
    OwnershipFlow.entry_admitted hvalid hflows.owned ?_, ?_⟩
  · intro handle _
    by_cases hinitial : handle ∈ (adapt symbols function).initialHandles.map
        OwnershipFlow.InitialHandle.handle
    · rw [if_pos hinitial]
      obtain ⟨initial, hmem, hhandle⟩ := List.mem_map.mp hinitial
      refine ⟨initial, hmem, hhandle, ?_⟩
      obtain ⟨parameter, _, rfl⟩ := List.mem_map.mp hmem
      exact if_pos hinitial
    · rw [if_neg hinitial]
      exact if_neg hinitial
  · intro symbol type hknown hstored haarc
    obtain ⟨parameter, hparameter, rfl⟩ := parameter_of_known hverified hflows hknown
    have htype : parameter.type = type :=
      Option.some.inj ((hverified.parameters parameter hparameter).2.symm.trans hstored)
    rw [← htype] at haarc
    rw [hstrong parameter hparameter haarc]
    refine ⟨if_pos ?_, by decide⟩
    refine List.mem_map.mpr ⟨_, List.mem_map_of_mem (List.mem_filter.mpr ⟨hparameter, haarc⟩), rfl⟩

include hverified hflows in
/-- **The invariant holds when a caller enters.** -/
theorem invariant_enter (henters : function.Enters state) :
    ∃ block, Invariant inits owns ⟨function.entry, 0, state⟩ block := by
  obtain ⟨block, hblock⟩ := findBlock_isSome hverified.entry
  have hheld : ∀ parameter ∈ function.parameters,
      state.held parameter.symbol.id = some parameter.type := fun parameter h => (henters.1 parameter h).1
  refine ⟨block, hblock, ⟨mem_graph_blockIds.mpr hverified.entry, Relation.ReflTransGen.refl⟩,
    Nat.zero_le _, ?_, ?_, ?_, ?_⟩
  · intro symbol type hsymbol
    by_cases hparameter : symbol ∈ function.parameters.map fun parameter => parameter.symbol.id
    · obtain ⟨parameter, hmem, rfl⟩ := List.mem_map.mp hparameter
      rw [hheld parameter hmem] at hsymbol
      rw [← hsymbol]
      exact (hverified.parameters parameter hmem).2
    · rw [(henters.2 symbol hparameter).1] at hsymbol
      cases hsymbol
  · intro parameter hparameter
    rw [hheld parameter hparameter]
    rfl
  · intro symbol hknown
    obtain ⟨parameter, hparameter, rfl⟩ := parameter_of_known hverified hflows hknown
    rw [hheld parameter hparameter]
    rfl
  · refine entry_owned hverified hflows fun parameter hparameter haarc => ?_
    rw [(henters.1 parameter hparameter).2, tokenFor, if_pos haarc]
    rfl

variable {instruction : Instruction}

/-- What is known after an instruction was known before it, or is what it writes. -/
theorem known_succ (hget : block.instructions[index]? = some instruction)
    (h : KnownBefore inits id block (index + 1) symbol) :
    KnownBefore inits id block index symbol ∨
      (instruction.effect ≠ .discard ∧ symbol = instruction.destination) := by
  obtain ⟨position, hposition, hsymbol⟩ := h
  rw [List.take_add_one, accesses_instruction hget] at hposition
  unfold DefiniteInitialization.transferWrites at hposition
  rw [List.foldl_append] at hposition
  rcases DefiniteInitialization.mem_write.mp hposition with hposition | hwrite
  · exact Or.inl ⟨position, hposition, hsymbol⟩
  · obtain ⟨written, hwritten, hindex⟩ := Option.bind_eq_some_iff.mp hwrite
    simp only [instructionAccess, Option.ite_none_right_eq_some, Option.some_inj] at hwritten
    refine Or.inr ⟨hwritten.1.1, ?_⟩
    rw [← hsymbol, get_of_index? hindex, hwritten.2]

/-- An instruction produces a value of its result type. -/
theorem producedType_eq (hsafe : instruction.Safe function functions state) :
    instruction.producedType functions state = instruction.resultType := by
  unfold Instruction.producedType
  split
  · next operand hopcode hoperands =>
    have hfits := hsafe.fits
    simp only [Instruction.Fits, hopcode, Instruction.UncheckedFits] at hfits
    have htype : operand.type = instruction.resultType :=
      hfits.2 operand (by rw [hoperands]; exact List.mem_cons_self)
    have hread := hsafe.reads operand (by rw [hoperands]; exact List.mem_cons_self)
    unfold Operand.heldType
    cases hlocal : operand.local? functions with
    | none => exact htype
    | some name =>
        cases operand with
        | literal type payload => cases hlocal
        | symbol type symbol =>
            simp only [Operand.Safe, hlocal] at hread
            rw [← symbol_of_local? hlocal]
            simp only [hread.2.1, Option.getD_some]
            exact htype
  · rfl

/-- The actions of the operands of an instruction. -/
def readActions (symbols : List SymbolId) (index : Nat) (instruction : Instruction) :
    List OwnershipFlow.Action :=
  (instruction.operands.filterMap (Operand.handle? symbols)).map fun symbol =>
    { kind :=
        if instruction.opcode.isOwnership && instruction.opcode.consumesOwnership then .consume
        else .observe,
      handle := symbol, expected := instruction.opcode.expectedKind, instruction := index,
      terminator := false }

/-- The action of the result of an instruction. -/
def resultActions (index : Nat) (instruction : Instruction) : List OwnershipFlow.Action :=
  if instruction.effect = .discard ∨ instruction.destination = 0 then []
  else
    [{ kind := if isAarcType instruction.resultType then .define else .forget,
       handle := instruction.destination, expected := instruction.opcode.producedKind,
       instruction := index, terminator := false }]

theorem appendInstruction_eq (symbols : List SymbolId) (index : Nat) (instruction : Instruction) :
    appendInstruction symbols index instruction
      = readActions symbols index instruction ++ resultActions index instruction := rfl

/-- Reading changes the states of what is given back, which is live. -/
theorem performAll_readActions (hsymbols : NamesFunctions symbols functions)
    (hoperation : verifyOperation functions instruction = [])
    (hoperands : ∀ operand ∈ instruction.operands, verifyOperand storage functions operand = [])
    (hunshared : ∀ operand ∈ instruction.operands, operand.Unshared functions)
    (hlive : ∀ operand ∈ instruction.operands, ∀ name, operand.handle? symbols = some name →
      states name = liveState instruction.opcode.expectedKind) (symbol : SymbolId) :
    OwnershipFlow.performAll (readActions symbols index instruction) states symbol
      = if symbol ∈ instruction.released functions then .consumed else states symbol := by
  by_cases hconsumes : instruction.opcode.consumesOwnership = true
  · obtain ⟨operand, hsingle, haarc, _⟩ := single_of_consumes hoperation hconsumes
    have hmem : operand ∈ instruction.operands := by
      rw [hsingle]
      exact List.mem_cons_self
    have hreleased : instruction.released functions = [operand].filterMap (Operand.local? functions) := by
      unfold Instruction.released
      rw [if_pos hconsumes, hsingle]
      simp [haarc]
    unfold readActions
    rw [hreleased, hsingle]
    cases hhandle : operand.handle? symbols with
    | none =>
        have hlocal : operand.local? functions = none := by
          by_contra hsome
          obtain ⟨name, hname⟩ := Option.ne_none_iff_exists'.mp hsome
          obtain ⟨type, htyped, _, hfunction, _⟩ :=
            lookup_of_verifyOperand (hoperands operand hmem) hname (hunshared operand hmem)
          rw [htyped] at haarc
          rw [handle?_eq hsymbols htyped hfunction haarc] at hhandle
          cases hhandle
        simp [hhandle, hlocal, OwnershipFlow.performAll]
    | some name =>
        have hlocal := (local?_of_handle? hsymbols hhandle (hoperands operand hmem)).1
        have hstate := hlive operand hmem name hhandle
        simp only [List.filterMap_cons, hhandle, hlocal, List.filterMap_nil, List.map_cons,
          List.map_nil, List.mem_singleton, hconsumes, consumes_isOwnership hconsumes, Bool.and_self,
          if_true, OwnershipFlow.performAll, List.foldl_cons, List.foldl_nil,
          OwnershipFlow.Action.perform, OwnershipFlow.Action.performOn, hstate]
        by_cases hsame : symbol = name
        · rw [if_pos hsame, hsame, Function.update_self]
        · rw [if_neg hsame, Function.update_of_ne hsame]
  · have hreleased : instruction.released functions = [] := if_neg hconsumes
    rw [hreleased, if_neg List.not_mem_nil, performAll_observe]
    intro action haction
    obtain ⟨name, _, rfl⟩ := List.mem_map.mp haction
    simp [hconsumes]

/-- The result of an instruction gives its destination a fresh state. -/
theorem performAll_resultActions (hzero : instruction.effect ≠ .discard → instruction.destination ≠ 0) :
    OwnershipFlow.performAll (resultActions index instruction) states
      = if instruction.effect = .discard then states
        else Function.update states instruction.destination
          (tokenFor instruction.resultType instruction.opcode.producedKind) := by
  unfold resultActions
  by_cases hdiscard : instruction.effect = .discard
  · rw [if_pos (Or.inl hdiscard), if_pos hdiscard]
    rfl
  · rw [if_neg (not_or.mpr ⟨hdiscard, hzero hdiscard⟩), if_neg hdiscard]
    show Function.update states _ _ = Function.update states _ _
    unfold OwnershipFlow.Action.performOn tokenFor
    by_cases haarc : isAarcType instruction.resultType = true
    · simp [haarc]
    · simp [haarc]

/-- The token of a symbol after an instruction. -/
theorem token_execute (instruction : Instruction) (state : RunState) (symbol : SymbolId) :
    (instruction.execute functions state).token symbol
      = if instruction.effect ≠ .discard ∧ symbol = instruction.destination then
          tokenFor instruction.resultType instruction.opcode.producedKind
        else if symbol ∈ instruction.released functions then .consumed
        else state.token symbol := by
  unfold Instruction.execute
  by_cases hdiscard : instruction.effect = .discard
  · simp [hdiscard]
  · by_cases hsame : symbol = instruction.destination
    · simp [hdiscard, hsame]
    · simp [hdiscard, hsame, Function.update_of_ne]

theorem held_execute (hsafe : instruction.Safe function functions state) (symbol : SymbolId) :
    (instruction.execute functions state).held symbol
      = if instruction.effect ≠ .discard ∧ symbol = instruction.destination then
          some instruction.resultType
        else state.held symbol := by
  unfold Instruction.execute
  rw [producedType_eq hsafe]
  by_cases hdiscard : instruction.effect = .discard
  · simp [hdiscard]
  · by_cases hsame : symbol = instruction.destination
    · simp [hdiscard, hsame]
    · simp [hdiscard, hsame, Function.update_of_ne]

theorem liveState_ne_absent (kind : HandleKind) : liveState kind ≠ .absent := by
  cases kind <;> decide

include hverified hsymbols hflows in
/-- The tokens of initialized references follow the masks over an instruction. -/
theorem owned_step
    (hinvariant : Invariant inits owns ⟨id, index, state⟩ block)
    (hcovered : function.Covered functions ⟨id, index, state⟩)
    (hget : block.instructions[index]? = some instruction) (hsafe : instruction.Safe function functions state) :
    ∃ states : HandleStates, Admits (OwnershipFlow.transfer
        (actionsBefore symbols block (index + 1)) (owns id).1) states ∧
      ∀ symbol type, KnownBefore inits id block (index + 1) symbol →
        storage.lookup symbol = some type → isAarcType type = true →
        states symbol = (instruction.execute functions state).token symbol ∧
          (instruction.execute functions state).token symbol ≠ .absent := by
  have hclean := hverified.instructions block (mem_of_findBlock hinvariant.found) instruction
    (List.mem_of_getElem? hget)
  unfold verifyInstruction at hclean
  simp only [List.append_eq_nil_iff] at hclean
  obtain ⟨⟨hoperation, hdestination⟩, hoperands⟩ := hclean
  rw [List.flatMap_eq_nil_iff] at hoperands
  have hunshared : ∀ operand ∈ instruction.operands, operand.Unshared functions := by
    intro operand hoperand
    refine hcovered.unshared block hinvariant.found operand ?_
    unfold Block.readsAt
    rw [hget]
    exact hoperand
  obtain ⟨states, hadmits, hsame⟩ := hinvariant.owned
  -- what is read is live, so it is known
  have hlive : ∀ operand ∈ instruction.operands, ∀ name, operand.handle? symbols = some name →
      states name = liveState instruction.opcode.expectedKind := by
    intro operand hoperand name hhandle
    obtain ⟨hlocal, haarc⟩ := local?_of_handle? hsymbols hhandle (hoperands operand hoperand)
    obtain ⟨type, rfl, _, hfunction, hstored⟩ :=
      lookup_of_verifyOperand (hoperands _ hoperand) hlocal (hunshared _ hoperand)
    have hread := hsafe.reads _ hoperand
    simp only [Operand.Safe, hlocal] at hread
    rw [← hread.2.2 haarc]
    refine (hsame name type ?_ hstored haarc).1
    refine known_of_read hflows hinvariant (accesses_instruction hget)
      (List.mem_flatMap.mpr ⟨_, hoperand, ?_⟩) hstored
    simp [appendStorageRead, hfunction, hstored]
  refine ⟨OwnershipFlow.performAll (appendInstruction symbols index instruction) states, ?_, ?_⟩
  · rw [actionsBefore_succ hget, OwnershipFlow.transfer, List.foldl_append]
    exact OwnershipFlow.transfer_admits (OwnershipFlow.buildHandleCatalog_nodup _) hadmits
  · intro symbol type hknown hstored haarc
    have hzero : instruction.effect ≠ .discard → instruction.destination ≠ 0 :=
      fun hdiscard => (destination_of_verify hdestination hdiscard).1
    rw [appendInstruction_eq, performAll_append, performAll_resultActions hzero, token_execute]
    by_cases hwritten : instruction.effect ≠ .discard ∧ symbol = instruction.destination
    · -- a fresh reference
      obtain ⟨hdiscard, rfl⟩ := hwritten
      have htype : instruction.resultType = type :=
        Option.some.inj ((destination_of_verify hdestination hdiscard).2.symm.trans hstored)
      rw [if_neg hdiscard, Function.update_self, if_pos ⟨hdiscard, rfl⟩, tokenFor, htype, if_pos haarc]
      exact ⟨rfl, liveState_ne_absent _⟩
    · -- an old one, given back or not
      have hbefore := (known_succ hget hknown).resolve_right hwritten
      obtain ⟨htoken, hpresent⟩ := hsame symbol type hbefore hstored haarc
      have hkept : (if instruction.effect = .discard then
            OwnershipFlow.performAll (readActions symbols index instruction) states
          else Function.update
            (OwnershipFlow.performAll (readActions symbols index instruction) states)
            instruction.destination
            (tokenFor instruction.resultType instruction.opcode.producedKind)) symbol
          = OwnershipFlow.performAll (readActions symbols index instruction) states symbol := by
        by_cases hdiscard : instruction.effect = .discard
        · rw [if_pos hdiscard]
        · rw [if_neg hdiscard, Function.update_of_ne fun hsymbol => hwritten ⟨hdiscard, hsymbol⟩]
      rw [hkept, performAll_readActions hsymbols hoperation hoperands hunshared hlive,
        if_neg hwritten, htoken]
      refine ⟨rfl, ?_⟩
      by_cases hreleased : symbol ∈ instruction.released functions
      · rw [if_pos hreleased]
        decide
      · rw [if_neg hreleased]
        exact hpresent

include hverified hsymbols hflows in
/-- **The invariant is kept by an instruction.** -/
theorem invariant_step
    (hinvariant : Invariant inits owns ⟨id, index, state⟩ block)
    (hcovered : function.Covered functions ⟨id, index, state⟩)
    (hget : block.instructions[index]? = some instruction) :
    Invariant inits owns ⟨id, index + 1, instruction.execute functions state⟩ block := by
  have hsafe := instruction_safe hverified hsymbols hflows hinvariant hcovered hget
  have hclean := hverified.instructions block (mem_of_findBlock hinvariant.found) instruction
    (List.mem_of_getElem? hget)
  unfold verifyInstruction at hclean
  simp only [List.append_eq_nil_iff] at hclean
  have hdestination := hclean.1.2
  refine ⟨hinvariant.found, hinvariant.reachable, (List.getElem?_eq_some_iff.mp hget).1, ?_, ?_, ?_,
    owned_step hverified hsymbols hflows hinvariant hcovered hget hsafe⟩
  · intro symbol type hheld
    rw [held_execute hsafe] at hheld
    by_cases hwritten : instruction.effect ≠ .discard ∧ symbol = instruction.destination
    · rw [if_pos hwritten] at hheld
      rw [hwritten.2, (destination_of_verify hdestination hwritten.1).2]
      exact hheld
    · rw [if_neg hwritten] at hheld
      exact hinvariant.typed symbol type hheld
  · intro parameter hparameter
    rw [held_execute hsafe]
    split
    · rfl
    · exact hinvariant.parameters parameter hparameter
  · intro symbol hknown
    rw [held_execute hsafe]
    by_cases hwritten : instruction.effect ≠ .discard ∧ symbol = instruction.destination
    · rw [if_pos hwritten]
      rfl
    · rw [if_neg hwritten]
      exact hinvariant.initialized symbol ((known_succ hget hknown).resolve_right hwritten)

/-- The accesses of a block end with those of its terminator. -/
theorem accesses_eq (block : Block) :
    (flowBlock storage functions block).accesses
      = (flowBlock storage functions block).accesses.take block.instructions.length
        ++ [terminatorAccess storage functions block] := by
  have hlength : (flowBlock storage functions block).accesses.length
      ≤ block.instructions.length + 1 := by
    simp [flowBlock]
  calc (flowBlock storage functions block).accesses
      = (flowBlock storage functions block).accesses.take (block.instructions.length + 1) :=
        (List.take_of_length_le hlength).symm
    _ = _ := by rw [List.take_add_one, accesses_terminator, Option.toList_some]

include hverified hflows in
/-- What is known on entry to another block than the entry was known before the jump. -/
theorem known_target
    {next : Block} (hreach : function.graph.IsReachable id) (hblock : function.findBlock id = some block)
    (htarget : target ∈ block.terminator.successors) (hforward : target ≠ function.entry)
    (h : KnownBefore inits target next 0 symbol) :
    KnownBefore inits id block block.instructions.length symbol := by
  obtain ⟨position, hposition, hget⟩ := h
  have hvalid := hverified.flows_valid.1
  have hfound : (dataflowFunction storage functions function).findBlock id
      = some (flowBlock storage functions block) := by
    rw [findBlock_dataflowFunction, hblock]
    rfl
  have hreach' : (DefiniteInitialization.controlFlowFor
      (dataflowFunction storage functions function)).IsReachable id := by
    rw [controlFlowFor_dataflowFunction]
    exact hreach
  have hleaves := DefiniteInitialization.target_initialized hvalid hflows.initialized hreach' hfound
    htarget hforward hposition
  refine ⟨position, ?_, hget⟩
  rw [accesses_eq, DefiniteInitialization.transferWrites, List.foldl_append, List.foldl_cons,
    List.foldl_nil] at hleaves
  rcases DefiniteInitialization.mem_write.mp hleaves with hleaves | hwrite
  · exact hleaves
  · -- a terminator writes nothing
    simp [terminatorAccess] at hwrite

include hverified hflows in
/-- **The invariant is kept by a jump.** -/
theorem invariant_jump
    (hinvariant : Invariant inits owns ⟨id, block.instructions.length, state⟩ block)
    (htarget : target ∈ block.terminator.successors)
    (hcovered : function.Covered functions ⟨target, 0, state⟩) :
    ∃ next, Invariant inits owns ⟨target, 0, state⟩ next := by
  obtain ⟨next, hnext⟩ := findBlock_isSome (targets_of_verifyTerminator
    (hverified.terminators block (mem_of_findBlock hinvariant.found)) target htarget)
  have hvalid := hverified.flows_valid.2
  have hfound : (adapt symbols function).findBlock id = some (adaptBlock symbols block) := by
    rw [findBlock_adapt, hinvariant.found]
    rfl
  have hreach : (OwnershipFlow.controlFlowFor (adapt symbols function)).IsReachable id := by
    rw [controlFlowFor_adapt]
    exact hinvariant.reachable
  have hreachable := (OwnershipFlow.isReachable_target hvalid hreach hfound htarget).2
  rw [controlFlowFor_adapt] at hreachable
  refine ⟨next, hnext, hreachable, Nat.zero_le _, hinvariant.typed, hinvariant.parameters, ?_, ?_⟩
  · intro symbol hknown
    by_cases hentry : target = function.entry
    · subst hentry
      obtain ⟨parameter, hparameter, rfl⟩ := parameter_of_known hverified hflows hknown
      exact hinvariant.parameters parameter hparameter
    · exact hinvariant.initialized symbol
        (known_target hverified hflows hinvariant.reachable hinvariant.found htarget hentry hknown)
  · by_cases hentry : target = function.entry
    · subst hentry
      exact entry_owned hverified hflows (hcovered.reentry rfl rfl)
    · obtain ⟨states, hadmits, hsame⟩ := hinvariant.owned
      refine ⟨states, OwnershipFlow.target_admitted hvalid hflows.owned hreach hfound htarget hentry ?_,
        fun symbol type hknown => hsame symbol type
          (known_target hverified hflows hinvariant.reachable hinvariant.found htarget hentry hknown)⟩
      have hreturn : ∀ action ∈ appendReturn symbols block, action.kind = .observe := by
        intro action haction
        unfold appendReturn at haction
        split at haction
        · split at haction
          · cases haction
          · rw [List.mem_singleton.mp haction]
        · cases haction
      have hlater : Admits (OwnershipFlow.transfer (appendReturn symbols block) _)
          (OwnershipFlow.performAll (appendReturn symbols block) states) :=
        OwnershipFlow.transfer_admits (OwnershipFlow.buildHandleCatalog_nodup (adapt symbols function))
          hadmits
      rw [performAll_observe hreturn] at hlater
      rw [actions_terminator, OwnershipFlow.transfer, List.foldl_append]
      exact hlater

include hverified hsymbols hflows in
/-- **The invariant holds along every run through covered points.** -/
theorem invariant_of_reaches {point : Point}
    (h : function.Reaches functions (function.Covered functions) point) :
    function.Covered functions point ∧ ∃ block, Invariant inits owns point block := by
  induction h with
  | enter henters hcovered => exact ⟨hcovered, invariant_enter hverified hflows henters⟩
  | @step id index state block instruction _ hblock hget hcovered' ih =>
      obtain ⟨hcovered, found, hinvariant⟩ := ih
      obtain rfl : block = found := Option.some.inj (hblock.symm.trans hinvariant.found)
      exact ⟨hcovered', block,
        invariant_step hverified hsymbols hflows hinvariant hcovered hget⟩
  | @jump id target state block _ hblock htarget hcovered' ih =>
      obtain ⟨_, found, hinvariant⟩ := ih
      obtain rfl : block = found := Option.some.inj (hblock.symm.trans hinvariant.found)
      exact ⟨hcovered', invariant_jump hverified hflows hinvariant htarget hcovered'⟩

end Runs

/-! ## Verified modules -/

theorem functionSymbols_names {module : Module} {steps : Nat} (h : verify module steps = some []) :
    NamesFunctions module.functionSymbols module.functions := by
  have hnonzero := (verified_of_verify h).1
  intro id
  unfold Module.functionSymbols
  rw [List.mem_filter, List.mem_map, findFunction_isSome, decide_eq_true_eq]
  constructor
  · rintro ⟨⟨function, hfunction, rfl⟩, hzero⟩
    exact ⟨hzero, function, hfunction, rfl⟩
  · rintro ⟨hzero, function, hfunction, rfl⟩
    exact ⟨⟨function, hfunction, rfl⟩, hzero⟩

/-- **The verifiers are sound.** In a module without findings nothing goes wrong at any point of any run
of any of its functions whose points are all covered. -/
theorem verify_sound (module : Module) (steps : Nat) (h : verify module steps = some [])
    (function : Function) (hfunction : function ∈ module.functions) (point : Point)
    (hreaches : function.Reaches module.functions (function.Covered module.functions) point) :
    function.SafeAt module.functions point := by
  obtain ⟨storage, hverified⟩ := (verified_of_verify h).2 function hfunction
  obtain ⟨inits, owns, hflows⟩ := hverified.flows
  have hsymbols := functionSymbols_names h
  obtain ⟨hcovered, block, hinvariant⟩ := invariant_of_reaches hverified hsymbols hflows hreaches
  exact safeAt_of_invariant hverified hsymbols hflows hinvariant hcovered

/-! ## What the verifier misses -/

/-- A module of one function. -/
def singleFunction (parameters : List Parameter) (blocks : List Block) : Module where
  name := ["m"]
  functions := [⟨⟨100, "f"⟩, parameters, .scalar .unit, 0, blocks, ""⟩]
  sourceFiles := []

/-- An instruction without captures. -/
def plain (effect : Effect) (opcode : Opcode) (destination : SymbolId) (resultType : NativeType)
    (operands : List Operand) : Instruction :=
  ⟨effect, opcode, destination, resultType, operands, 0, []⟩

def jumpTo (target : BlockId) : Terminator := ⟨.jump, .none, target, 0⟩
def returnUnit : Terminator := ⟨.ret, .none, 0, 0⟩

def copyString : Instruction := plain .define .copy 2 (.scalar .string) [.symbol (.scalar .string) 1]
def releaseString : Instruction :=
  plain .discard .releaseStrong 0 (.scalar .unit) [.symbol (.scalar .string) 1]

/-- A loop that copies the string of the caller on every iteration. -/
def copyingLoop : Module :=
  singleFunction [⟨⟨1, "s"⟩, .scalar .string⟩]
    [⟨0, [], jumpTo 1⟩,
     ⟨1, [copyString], ⟨.branch, .literal (.scalar .bool) (.boolean true), 1, 2⟩⟩,
     ⟨2, [], returnUnit⟩]

/-- An entry block that releases the string of the caller and jumps to itself. -/
def releasingEntry : Module :=
  singleFunction [⟨⟨1, "s"⟩, .scalar .string⟩]
    [⟨0, [releaseString], jumpTo 0⟩]

/-- A function that reads a local of its own identity before it defines it. -/
def sharedIdentity : Module :=
  singleFunction []
    [⟨0, [plain .define .copy 2 (.scalar .int64) [.symbol (.scalar .int64) 100],
          plain .define .copy 100 (.scalar .int64) [.literal (.scalar .int64) (.int64 0)]],
      returnUnit⟩]

/-- A function that copies an integer to a Boolean and branches on it. -/
def mistypedCopy : Module :=
  singleFunction []
    [⟨0, [plain .define .copy 2 (.scalar .bool) [.literal (.scalar .int64) (.int64 5)]],
      ⟨.branch, .symbol (.scalar .bool) 2, 1, 1⟩⟩,
     ⟨1, [], returnUnit⟩]

/-- A caller that supplies one string. -/
def suppliesString : RunState where
  held := fun symbol => if symbol = 1 then some (.scalar .string) else none
  token := fun symbol => if symbol = 1 then .strong else .absent

/-- A caller without arguments. -/
def suppliesNothing : RunState where
  held := fun _ => none
  token := fun _ => .absent

theorem suppliesString_enters
    (h : function.parameters = [⟨⟨1, "s"⟩, .scalar .string⟩]) : function.Enters suppliesString := by
  unfold Function.Enters
  rw [h]
  refine ⟨fun parameter hparameter => ?_, fun symbol hsymbol => ?_⟩
  · rw [List.mem_singleton.mp hparameter]
    exact ⟨rfl, rfl⟩
  · have hne : symbol ≠ 1 := by simpa using hsymbol
    exact ⟨if_neg hne, if_neg hne⟩

theorem suppliesNothing_enters (h : function.parameters = []) : function.Enters suppliesNothing := by
  unfold Function.Enters
  rw [h]
  exact ⟨fun _ hparameter => absurd hparameter List.not_mem_nil, fun _ _ => ⟨rfl, rfl⟩⟩

theorem Function.Reaches.jumpFrom {allowed : Point → Prop} {id target : BlockId} {state : RunState} {block : Block}
    (h : function.Reaches functions allowed ⟨id, index, state⟩) (hblock : function.findBlock id = some block)
    (hindex : index = block.instructions.length) (htarget : target ∈ block.terminator.successors)
    (hallowed : allowed ⟨target, 0, state⟩) : function.Reaches functions allowed ⟨target, 0, state⟩ := by
  subst hindex
  exact .jump h hblock htarget hallowed

/-- Nothing goes wrong on any run of any function of a module. -/
def Module.RunsSafely (module : Module) : Prop :=
  ∀ function ∈ module.functions, ∀ point,
    function.Reaches module.functions (fun _ => True) point → function.SafeAt module.functions point

/-- **The verifier accepts modules with unsafe runs**: a reference is released again when the entry is
entered again, a local that shares its identity with a function is read before it is defined, and a
Boolean is read that holds an integer. -/
theorem not_verify_sound :
    (verify releasingEntry 12 = some [] ∧ ¬ releasingEntry.RunsSafely) ∧
    (verify sharedIdentity 12 = some [] ∧ ¬ sharedIdentity.RunsSafely) ∧
    verify mistypedCopy 12 = some [] ∧ ¬ mistypedCopy.RunsSafely := by
  refine ⟨⟨by decide +kernel, fun h => ?_⟩, ⟨by decide +kernel, fun h => ?_⟩, by decide +kernel, fun h => ?_⟩
  · -- the second release
    have hreleased : (releasingEntry.functions.head (by decide)).Reaches releasingEntry.functions
        (fun _ => True) ⟨0, 1, releaseString.execute releasingEntry.functions suppliesString⟩ :=
      .step (.enter (suppliesString_enters rfl) trivial) rfl rfl trivial
    obtain ⟨block, hblock, _, hinstruction, _⟩ := h _ List.mem_cons_self ⟨0, 0, _⟩
      (hreleased.jumpFrom rfl rfl List.mem_cons_self trivial)
    cases hblock
    have hread := (hinstruction _ rfl).reads _ List.mem_cons_self
    exact absurd (hread.2.2 rfl) (by decide)
  · -- the read of nothing
    obtain ⟨block, hblock, _, hinstruction, _⟩ := h _ List.mem_cons_self _
      (.enter (suppliesNothing_enters rfl) trivial)
    cases hblock
    have hread := (hinstruction _ rfl).reads _ List.mem_cons_self
    exact absurd hread.2.1 (by decide)
  · -- the branch on an integer
    obtain ⟨block, hblock, _, _, hterminator⟩ := h _ List.mem_cons_self _
      (.step (.enter (suppliesNothing_enters rfl) trivial) rfl rfl trivial)
    cases hblock
    have hread := (hterminator rfl).1
    exact absurd hread.2.1 (by decide)

/-- The points of the copying loop are covered while the string of the caller is live. -/
theorem copyingLoop_covered {point : Point} (hlive : point.state.token 1 = .strong) :
    ∀ function ∈ copyingLoop.functions, function.Covered copyingLoop.functions point := by
  intro function hfunction
  obtain rfl := List.mem_singleton.mp hfunction
  have hblocks : ∀ block ∈ copyingLoop.functions.flatMap Function.blocks,
      (∀ operand ∈ block.instructions.flatMap Instruction.operands ++ block.terminator.reads,
        operand.local? copyingLoop.functions = none ∨ operand.local? copyingLoop.functions = some 1) ∧
      ∀ instruction ∈ block.instructions, instruction.opcode = .copy ∧
        ∀ operand ∈ instruction.operands, operand.type = instruction.resultType := by
    decide
  refine ⟨fun block hblock operand hoperand id hid => ?_, fun block hblock instruction hget => ?_, ?_⟩
  · have hread := (hblocks block (List.mem_flatMap.mpr ⟨_, List.mem_cons_self, mem_of_findBlock hblock⟩)).1
      operand (mem_readsAt hoperand)
    rw [hid] at hread
    rcases hread with hnone | hone
    · cases hnone
    · rw [Option.some.inj hone]
      rfl
  · obtain ⟨hopcode, htypes⟩ :=
      (hblocks block (List.mem_flatMap.mpr ⟨_, List.mem_cons_self, mem_of_findBlock hblock⟩)).2
        instruction (List.mem_of_getElem? hget)
    unfold Instruction.UncheckedFits
    rw [hopcode]
    exact htypes
  · intro _ _ parameter hparameter _
    rw [List.mem_singleton.mp hparameter]
    exact hlive

/-- On the second iteration the loop still finds what it copies. -/
theorem verify_sound_copyingLoop :
    (copyingLoop.functions.head (by decide)).SafeAt copyingLoop.functions
      ⟨1, 0, copyString.execute copyingLoop.functions suppliesString⟩ := by
  have hcopied : (copyingLoop.functions.head (by decide)).Reaches copyingLoop.functions
      ((copyingLoop.functions.head (by decide)).Covered copyingLoop.functions)
      ⟨1, 1, copyString.execute copyingLoop.functions suppliesString⟩ := by
    have hentered : (copyingLoop.functions.head (by decide)).Reaches copyingLoop.functions
        ((copyingLoop.functions.head (by decide)).Covered copyingLoop.functions)
        ⟨0, 0, suppliesString⟩ :=
      .enter (suppliesString_enters rfl) (copyingLoop_covered rfl _ List.mem_cons_self)
    exact .step (hentered.jumpFrom rfl rfl List.mem_cons_self
      (copyingLoop_covered rfl _ List.mem_cons_self)) rfl rfl (copyingLoop_covered rfl _ List.mem_cons_self)
  exact verify_sound copyingLoop 12 (by decide +kernel) _ List.mem_cons_self _
    (hcopied.jumpFrom rfl rfl List.mem_cons_self (copyingLoop_covered rfl _ List.mem_cons_self))

end Tala.Xpp
