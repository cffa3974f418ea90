import Tala.Xpp.Runs

/-!
# `Xpp.VerifierFacts` — what a verified module satisfies

The verifier threads a context through its checks. A clean context at the end means that every check on
the way was clean (`foldl_clean`, `foldlM_clean`); `Function.Verified` collects the checks of one
function as plain statements, and `verified_of_verify` is the only place that opens the verifier.
-/

namespace Tala.Xpp

open Library Tala.Native Tala.Analysis

/-! ## Clean contexts -/

/-- A context without findings. -/
def Context.Clean (context : Context) : Prop := context.issues = []

variable {context : Context} {storage : StorageCatalog} {functions : List Function}
  {state : Context × StorageCatalog} {declares : SymbolId → NativeType → Prop}

theorem Context.clean_report {problems : List Problem} :
    (context.report problems).Clean ↔ context.Clean ∧ problems = [] := by
  unfold Clean report
  simp

variable {α : Type} {function : Function} {σ : Type}
  {step : Context × StorageCatalog → α → Context × StorageCatalog} {l : List α} {symbol : SymbolId}
  {type : NativeType} {parameters : List Parameter} {instruction : Instruction × Nat} {module : Module}
  {steps : Nat}

/-- When a clean result needs a clean start and a fact about the element, a clean fold needs the fact
about every element. -/
theorem foldl_clean {step : σ → α → σ} (clean : σ → Prop) (fact : α → Prop)
    (h : ∀ s a, clean (step s a) → clean s ∧ fact a) {s : σ}
    (hl : clean (l.foldl step s)) : clean s ∧ ∀ a ∈ l, fact a := by
  induction l generalizing s with
  | nil => exact ⟨hl, fun _ ha => absurd ha List.not_mem_nil⟩
  | cons first rest ih =>
      obtain ⟨hfirst, hrest⟩ := ih hl
      obtain ⟨hs, hfact⟩ := h s first hfirst
      exact ⟨hs, List.forall_mem_cons.mpr ⟨hfact, hrest⟩⟩

theorem foldlM_clean {step : σ → α → Option σ} (clean : σ → Prop) (fact : α → Prop)
    (h : ∀ s a s', step s a = some s' → clean s' → clean s ∧ fact a) {s s' : σ}
    (hl : l.foldlM step s = some s') (hclean : clean s') : clean s ∧ ∀ a ∈ l, fact a := by
  induction l generalizing s with
  | nil =>
      rw [List.foldlM_nil] at hl
      cases hl
      exact ⟨hclean, fun _ ha => absurd ha List.not_mem_nil⟩
  | cons first rest ih =>
      rw [List.foldlM_cons] at hl
      obtain ⟨between, hfirst, hrest⟩ := Option.bind_eq_some_iff.mp hl
      obtain ⟨hbetween, hfacts⟩ := ih hrest
      obtain ⟨hs, hfact⟩ := h s first between hfirst hbetween
      exact ⟨hs, List.forall_mem_cons.mpr ⟨hfact, hfacts⟩⟩

theorem exists_of_mapM {β : Type} {f : α → Option β} {results : List β}
    (h : l.mapM f = some results) {a : α} (ha : a ∈ l) : ∃ b ∈ results, f a = some b := by
  induction l generalizing results with
  | nil => cases ha
  | cons first rest ih =>
      rw [List.mapM_cons] at h
      obtain ⟨b, hb, h⟩ := Option.bind_eq_some_iff.mp h
      obtain ⟨later, hlater, h⟩ := Option.bind_eq_some_iff.mp h
      cases h
      rcases List.mem_cons.mp ha with rfl | ha
      · exact ⟨b, List.mem_cons_self, hb⟩
      · obtain ⟨found, hfound, hf⟩ := ih hlater ha
        exact ⟨found, List.mem_cons_of_mem _ hfound, hf⟩

/-! ## Blocks -/

theorem declareBlocks_clean {declared : List BlockId} {blocks : List Block}
    (h : (declareBlocks context declared blocks).Clean) :
    context.Clean ∧ (blocks.map FlowProgram.Block.id).Nodup ∧ ∀ block ∈ blocks, block.id ∉ declared := by
  induction blocks generalizing context declared with
  | nil => exact ⟨h, List.nodup_nil, fun _ hb => absurd hb List.not_mem_nil⟩
  | cons first rest ih =>
      unfold declareBlocks at h
      by_cases hdeclared : first.id ∈ declared
      · rw [if_pos hdeclared] at h
        have hreport := (Context.clean_report.mp (ih h).1).2
        cases hreport
      · rw [if_neg hdeclared] at h
        obtain ⟨hclean, hnodup, hnew⟩ := ih h
        refine ⟨hclean, ?_, ?_⟩
        · rw [List.map_cons, List.nodup_cons]
          refine ⟨fun hmem => ?_, hnodup⟩
          obtain ⟨block, hblock, hid⟩ := List.mem_map.mp hmem
          exact hnew block hblock (by rw [hid]; exact List.mem_cons_self)
        · intro block hblock
          rcases List.mem_cons.mp hblock with rfl | hblock
          · exact hdeclared
          · exact fun hm => hnew block hblock (List.mem_cons_of_mem _ hm)

theorem verifyBlock_clean {blocks : List BlockId} {returnType : NativeType} {block : Block}
    (h : (verifyBlock storage functions blocks returnType context block).Clean) :
    context.Clean ∧ (∀ instruction ∈ block.instructions,
        verifyInstruction storage functions instruction = []) ∧
      verifyTerminator storage functions blocks returnType block.terminator = [] := by
  unfold verifyBlock at h
  obtain ⟨hchecked, hterminator⟩ := Context.clean_report.mp h
  have hstep : ∀ (c : Context) (p : Instruction × Nat),
      (verifyInstructionAt storage functions c p).Clean →
        c.Clean ∧ verifyInstruction storage functions p.1 = [] := by
    intro c p hclean
    unfold verifyInstructionAt at hclean
    obtain ⟨hc, hp⟩ := Context.clean_report.mp hclean
    exact ⟨hc, hp⟩
  have hinstructions : (block.instructions.zipIdx.foldl (verifyInstructionAt storage functions)
      { context with block := block.id }).Clean := hchecked
  have hfold := foldl_clean Context.Clean _ hstep hinstructions
  refine ⟨hfold.1, fun instruction hinstruction => ?_, hterminator⟩
  obtain ⟨index, hindex, hget⟩ := List.getElem_of_mem hinstruction
  have hmem : (instruction, index) ∈ block.instructions.zipIdx := by
    rw [List.mk_mem_zipIdx_iff_getElem?, ← hget]
    exact List.getElem?_eq_getElem hindex
  exact hfold.2 _ hmem

/-! ## Storage -/

/-- A storage catalog that keeps every entry of another. -/
def Keeps (storage storage' : StorageCatalog) : Prop :=
  ∀ symbol type, storage.lookup symbol = some type → storage'.lookup symbol = some type

theorem tryEmplace_keeps (storage : StorageCatalog) (symbol : SymbolId) (type : NativeType) :
    Keeps storage (tryEmplace storage symbol type).1 := by
  intro other stored hstored
  unfold tryEmplace
  by_cases h : (storage.lookup symbol).isSome
  · rw [if_pos h]
    exact hstored
  · rw [if_neg h, List.lookup_append, hstored]
    rfl

theorem tryEmplace_lookup (h : (tryEmplace storage symbol type).2 = true) :
    (tryEmplace storage symbol type).1.lookup symbol = some type := by
  unfold tryEmplace at h ⊢
  by_cases hs : (storage.lookup symbol).isSome
  · rw [if_pos hs] at h
    cases h
  · rw [if_neg hs, List.lookup_append, Option.not_isSome_iff_eq_none.mp hs]
    simp

theorem declareParameters_clean
    (h : (declareParameters context storage parameters).1.Clean) :
    context.Clean ∧ Keeps storage (declareParameters context storage parameters).2 ∧
      ∀ parameter ∈ parameters, parameter.symbol.id ≠ 0 ∧
        (declareParameters context storage parameters).2.lookup parameter.symbol.id
          = some parameter.type := by
  induction parameters generalizing context storage with
  | nil => exact ⟨h, fun _ _ hs => hs, fun _ hp => absurd hp List.not_mem_nil⟩
  | cons first rest ih =>
      simp only [declareParameters] at h ⊢
      by_cases hzero : first.symbol.id = 0
      · rw [if_pos hzero] at h
        have hreport := (Context.clean_report.mp (ih h).1).2
        cases hreport
      · rw [if_neg hzero] at h ⊢
        obtain ⟨hclean, hkeeps, hparameters⟩ := ih h
        obtain ⟨hcontext, hemplaced⟩ := Context.clean_report.mp hclean
        have hinserted : (tryEmplace storage first.symbol.id first.type).2 = true := by
          simpa using hemplaced
        refine ⟨hcontext, fun _ _ hs => hkeeps _ _ (tryEmplace_keeps _ _ _ _ _ hs), ?_⟩
        intro parameter hparameter
        rcases List.mem_cons.mp hparameter with rfl | hparameter
        · exact ⟨hzero, hkeeps _ _ (tryEmplace_lookup hinserted)⟩
        · exact hparameters parameter hparameter

theorem declareInstruction_keeps (state : Context × StorageCatalog) (instruction : Instruction × Nat) :
    Keeps state.2 (declareInstruction state instruction).2 := by
  unfold declareInstruction
  by_cases hdefine : instruction.1.effect ≠ .define
  · simp only [if_pos hdefine]
    exact fun _ _ hs => hs
  · by_cases hzero : instruction.1.destination = 0
    · simp only [if_neg hdefine, if_pos hzero]
      exact fun _ _ hs => hs
    · simp only [if_neg hdefine, if_neg hzero]
      exact tryEmplace_keeps _ _ _

theorem declareInstruction_clean (h : (declareInstruction state instruction).1.Clean) : state.1.Clean := by
  unfold declareInstruction at h
  by_cases hdefine : instruction.1.effect ≠ .define
  · simp only [if_pos hdefine] at h
    exact h
  · by_cases hzero : instruction.1.destination = 0
    · simp only [if_neg hdefine, if_pos hzero] at h
      exact (Context.clean_report.mp h).1
    · simp only [if_neg hdefine, if_neg hzero] at h
      exact (Context.clean_report.mp h).1

theorem foldl_keeps (h : ∀ state a, Keeps state.2 (step state a).2) (l : List α) (state : Context × StorageCatalog) :
    Keeps state.2 (l.foldl step state).2 := by
  induction l generalizing state with
  | nil => exact fun _ _ hs => hs
  | cons first rest ih => exact fun _ _ hs => ih _ _ _ (h state first _ _ hs)

theorem declareBlock_keeps (state : Context × StorageCatalog) (block : Block) :
    Keeps state.2 (declareBlock state block).2 :=
  foldl_keeps declareInstruction_keeps block.instructions.zipIdx ({ state.1 with block := block.id }, state.2)

theorem declareBlock_clean {block : Block} (h : (declareBlock state block).1.Clean) : state.1.Clean :=
  (foldl_clean (fun s : Context × StorageCatalog => s.1.Clean) (fun _ => True)
    (fun _ _ hclean => ⟨declareInstruction_clean hclean, trivial⟩) h).1

/-- The storage of a function holds its parameters. -/
theorem declareStorage_clean (h : (declareStorage context function).1.Clean) :
    context.Clean ∧ ∀ parameter ∈ function.parameters, parameter.symbol.id ≠ 0 ∧
      (declareStorage context function).2.lookup parameter.symbol.id = some parameter.type := by
  unfold declareStorage at h ⊢
  have hparameters := (foldl_clean (fun s : Context × StorageCatalog => s.1.Clean) (fun _ => True)
    (fun _ _ hclean => ⟨declareBlock_clean hclean, trivial⟩) h).1
  obtain ⟨hcontext, _, hlookup⟩ := declareParameters_clean hparameters
  refine ⟨hcontext, fun parameter hparameter => ⟨(hlookup parameter hparameter).1, ?_⟩⟩
  exact foldl_keeps declareBlock_keeps _ _ _ _ (hlookup parameter hparameter).2

/-- A storage catalog whose entries are all declared. -/
def Sound (declares : SymbolId → NativeType → Prop) (storage : StorageCatalog) : Prop :=
  ∀ symbol type, storage.lookup symbol = some type → declares symbol type

theorem tryEmplace_sound
    (h : Sound declares storage) (hnew : declares symbol type) :
    Sound declares (tryEmplace storage symbol type).1 := by
  intro other stored hstored
  unfold tryEmplace at hstored
  by_cases hpresent : (storage.lookup symbol).isSome
  · rw [if_pos hpresent] at hstored
    exact h other stored hstored
  · rw [if_neg hpresent, List.lookup_append] at hstored
    cases hold : storage.lookup other with
    | some found =>
        rw [hold] at hstored
        exact h other stored (hold.trans hstored)
    | none =>
        rw [hold, Option.none_or] at hstored
        by_cases hsame : other = symbol
        · simp only [hsame, List.lookup_cons, beq_self_eq_true, Option.some_inj] at hstored
          rw [hsame, ← hstored]
          exact hnew
        · simp [List.lookup_cons, beq_false_of_ne hsame] at hstored

theorem declareParameters_sound (h : Sound declares storage)
    (hnew : ∀ parameter ∈ parameters, declares parameter.symbol.id parameter.type) :
    Sound declares (declareParameters context storage parameters).2 := by
  induction parameters generalizing context storage with
  | nil => exact h
  | cons first rest ih =>
      obtain ⟨hfirst, hrest⟩ := List.forall_mem_cons.mp hnew
      simp only [declareParameters]
      by_cases hzero : first.symbol.id = 0
      · rw [if_pos hzero]
        exact ih h hrest
      · rw [if_neg hzero]
        exact ih (tryEmplace_sound h hfirst) hrest

theorem declareInstruction_sound (h : Sound declares state.2) (hnew : instruction.1.effect = .define →
      declares instruction.1.destination instruction.1.resultType) :
    Sound declares (declareInstruction state instruction).2 := by
  unfold declareInstruction
  by_cases hdefine : instruction.1.effect ≠ .define
  · simp only [if_pos hdefine]
    exact h
  · by_cases hzero : instruction.1.destination = 0
    · simp only [if_neg hdefine, if_pos hzero]
      exact h
    · simp only [if_neg hdefine, if_neg hzero]
      exact tryEmplace_sound h (hnew (not_not.mp hdefine))

theorem foldl_sound (hstep : ∀ state, ∀ a ∈ l, Sound declares state.2 → Sound declares (step state a).2)
    (h : Sound declares state.2) :
    Sound declares (l.foldl step state).2 := by
  induction l generalizing state with
  | nil => exact h
  | cons first rest ih =>
      obtain ⟨hfirst, hrest⟩ := List.forall_mem_cons.mp (fun a ha s => hstep s a ha)
      exact ih (fun s a ha => hrest a ha s) (hfirst state h)

/-- **The storage of a function is what it declares.** -/
theorem declareStorage_sound (context : Context) (function : Function) :
    Sound function.Declares (declareStorage context function).2 := by
  have hparameters : Sound function.Declares
      (declareParameters context [] function.parameters).2 :=
    declareParameters_sound (fun _ _ h => by cases h)
      fun parameter hparameter => Or.inl ⟨parameter, hparameter, rfl, rfl⟩
  refine foldl_sound (fun state block hblock hstate => ?_) hparameters
  unfold declareBlock
  refine foldl_sound (fun state instruction hinstruction hstate => ?_) hstate
  refine declareInstruction_sound hstate fun hdefine => Or.inr ⟨block, hblock, instruction.1, ?_, ?_⟩
  · exact List.fst_mem_of_mem_zipIdx hinstruction
  · exact ⟨hdefine, rfl, rfl⟩

/-! ## Functions -/

theorem reportInitialization_clean {issues : List DefiniteInitialization.Issue}
    (h : (reportInitialization context issues).Clean) :
    context.Clean ∧ ∀ issue ∈ issues, issue.kind ≠ .readBeforeInitialization := by
  induction issues generalizing context with
  | nil => exact ⟨h, fun _ hi => absurd hi List.not_mem_nil⟩
  | cons first rest ih =>
      unfold reportInitialization at h
      by_cases hkind : first.kind = .readBeforeInitialization
      · rw [if_pos hkind] at h
        have hreport := (Context.clean_report.mp (ih h).1).2
        cases hreport
      · rw [if_neg hkind] at h
        obtain ⟨hclean, hrest⟩ := ih h
        exact ⟨hclean, List.forall_mem_cons.mpr ⟨hkind, hrest⟩⟩

/-- The checks a verified function has passed, with its storage and the functions of its module. -/
structure Function.Verified (function : Function) (functions : List Function)
    (symbols : List SymbolId) (storage : StorageCatalog) (steps : Nat) : Prop where
  blocks : (function.blocks.map FlowProgram.Block.id).Nodup
  entry : function.entry ∈ function.blocks.map FlowProgram.Block.id
  parameters : ∀ parameter ∈ function.parameters, parameter.symbol.id ≠ 0 ∧
    storage.lookup parameter.symbol.id = some parameter.type
  declared : Sound function.Declares storage
  instructions : ∀ block ∈ function.blocks, ∀ instruction ∈ block.instructions,
    verifyInstruction storage functions instruction = []
  terminators : ∀ block ∈ function.blocks, verifyTerminator storage functions
    (function.blocks.map FlowProgram.Block.id) function.returnType block.terminator = []
  initialized : ∃ result, DefiniteInitialization.analyze (dataflowFunction storage functions function)
    false steps = some result ∧ ∀ issue ∈ result.issues, issue.kind ≠ .readBeforeInitialization
  owned : ∃ result, OwnershipFlow.analyze (adapt symbols function) false steps = some result ∧
    ∀ issue ∈ result.issues, translate function.symbol.id issue = none

theorem verifyFunction_clean {context' : Context}
    (h : verifyFunction module functions steps context function = some context')
    (hclean : context'.Clean) : context.Clean ∧ ∃ storage,
      (function.blocks.map FlowProgram.Block.id).Nodup ∧ function.entry ∈ function.blocks.map FlowProgram.Block.id ∧
      (∀ parameter ∈ function.parameters, parameter.symbol.id ≠ 0 ∧
        storage.lookup parameter.symbol.id = some parameter.type) ∧
      Sound function.Declares storage ∧
      (∀ block ∈ function.blocks, (∀ instruction ∈ block.instructions,
          verifyInstruction storage functions instruction = []) ∧
        verifyTerminator storage functions (function.blocks.map FlowProgram.Block.id) function.returnType
          block.terminator = []) ∧
      ∃ result, DefiniteInitialization.analyze (dataflowFunction storage functions function) false steps
        = some result ∧ ∀ issue ∈ result.issues, issue.kind ≠ .readBeforeInitialization := by
  unfold verifyFunction at h
  obtain ⟨result, hresult, rfl⟩ := Option.map_eq_some_iff.mp h
  obtain ⟨hchecked, hinitialized⟩ := reportInitialization_clean hclean
  obtain ⟨hdeclared, hblocks⟩ := foldl_clean Context.Clean _
    (fun _ _ hblock => verifyBlock_clean hblock) hchecked
  obtain ⟨hentered, hparameters⟩ := declareStorage_clean hdeclared
  obtain ⟨hdeclaredBlocks, hentry⟩ := Context.clean_report.mp hentered
  obtain ⟨hsources, hnodup, _⟩ := declareBlocks_clean hdeclaredBlocks
  have hcontext : context.Clean := (Context.clean_report.mp hsources).1
  exact ⟨hcontext, _, hnodup, by simpa using hentry, hparameters, declareStorage_sound _ _, hblocks, result, hresult, hinitialized⟩

/-! ## Modules -/

theorem findFunction_isSome :
    (findFunction functions symbol).isSome ↔ ∃ function ∈ functions, function.symbol.id = symbol := by
  unfold findFunction
  rw [List.find?_isSome]
  simp

theorem declareFunctions_clean {declared : List Function}
    (h : (declareFunctions context declared functions).1.Clean) :
    context.Clean ∧ (declareFunctions context declared functions).2 = declared ++ functions ∧
      ∀ function ∈ functions, function.symbol.id ≠ 0 := by
  induction functions generalizing context declared with
  | nil => exact ⟨h, (List.append_nil _).symm, fun _ hf => absurd hf List.not_mem_nil⟩
  | cons first rest ih =>
      unfold declareFunctions at h ⊢
      by_cases hbad : first.symbol.id = 0 ∨ first.symbol.spelling = ""
          ∨ (findFunction declared first.symbol.id).isSome
      · rw [if_pos hbad] at h
        have hreport := (Context.clean_report.mp (ih h).1).2
        cases hreport
      · rw [if_neg hbad] at h ⊢
        obtain ⟨hclean, hfunctions, hrest⟩ := ih h
        refine ⟨hclean, by rw [hfunctions, List.append_assoc, List.singleton_append], ?_⟩
        exact List.forall_mem_cons.mpr ⟨fun hzero => hbad (Or.inl hzero), hrest⟩

theorem verifyOwnership_eq_nil (h : verifyOwnership module steps = some [])
    (hfunction : function ∈ module.functions) :
    ∃ result, OwnershipFlow.analyze (adapt module.functionSymbols function) false steps = some result ∧
      ∀ issue ∈ result.issues, translate function.symbol.id issue = none := by
  unfold verifyOwnership at h
  obtain ⟨findings, hfindings, hempty⟩ := Option.map_eq_some_iff.mp h
  obtain ⟨found, hfound, hresult⟩ := exists_of_mapM hfindings hfunction
  obtain ⟨result, hanalyze, hissues⟩ := Option.map_eq_some_iff.mp hresult
  refine ⟨result, hanalyze, ?_⟩
  rw [List.flatten_eq_nil_iff] at hempty
  rw [hempty found hfound, List.filterMap_eq_nil_iff] at hissues
  exact hissues

/-- **A verified module**: the functions it declares are its own, and each of them has passed its
checks. -/
theorem verified_of_verify (h : verify module steps = some []) :
    (∀ function ∈ module.functions, function.symbol.id ≠ 0) ∧
      ∀ function ∈ module.functions, ∃ storage,
        function.Verified module.functions module.functionSymbols storage steps := by
  unfold verify at h
  obtain ⟨checked, hchecked, howned⟩ := Option.bind_eq_some_iff.mp h
  obtain ⟨ownership, hownership, happend⟩ := Option.map_eq_some_iff.mp howned
  obtain ⟨hclean, hempty⟩ := List.append_eq_nil_iff.mp happend
  subst hempty
  obtain ⟨hdeclared, hfunctions⟩ := foldlM_clean Context.Clean _
    (fun _ _ _ hstep hs => verifyFunction_clean hstep hs) hchecked hclean
  obtain ⟨_, hsame, hnonzero⟩ := declareFunctions_clean hdeclared
  rw [List.nil_append] at hsame
  refine ⟨hnonzero, fun function hfunction => ?_⟩
  obtain ⟨storage, hnodup, hentry, hparameters, hsound, hblocks, hinitialized⟩ :=
    hfunctions function hfunction
  rw [hsame] at hblocks hinitialized
  exact ⟨storage, hnodup, hentry, hparameters, hsound, fun block hblock => (hblocks block hblock).1,
    fun block hblock => (hblocks block hblock).2, hinitialized,
    verifyOwnership_eq_nil hownership hfunction⟩

/-! ## The verifier ends -/

theorem foldl_storage (h : ∀ s s' a, s.2 = s'.2 → (step s a).2 = (step s' a).2) (l : List α)
    {s s' : Context × StorageCatalog} (hs : s.2 = s'.2) : (l.foldl step s).2 = (l.foldl step s').2 := by
  induction l generalizing s s' with
  | nil => exact hs
  | cons first rest ih => exact ih (h s s' first hs)

theorem declareInstruction_storage (s s' : Context × StorageCatalog) (instruction : Instruction × Nat)
    (h : s.2 = s'.2) : (declareInstruction s instruction).2 = (declareInstruction s' instruction).2 := by
  unfold declareInstruction
  simp only [h]
  split
  · rfl
  split
  · rfl
  · rfl

theorem declareParameters_storage (context context' : Context) (storage : StorageCatalog)
    (parameters : List Parameter) :
    (declareParameters context storage parameters).2
      = (declareParameters context' storage parameters).2 := by
  induction parameters generalizing context context' storage with
  | nil => rfl
  | cons first rest ih =>
      simp only [declareParameters]
      split
      · exact ih _ _ _
      · exact ih _ _ _

/-- The storage of a function does not depend on the findings before it. -/
theorem declareStorage_storage (context context' : Context) (function : Function) :
    (declareStorage context function).2 = (declareStorage context' function).2 := by
  refine foldl_storage (fun s s' block hs => ?_) function.blocks
    (declareParameters_storage context context' [] function.parameters)
  exact foldl_storage declareInstruction_storage block.instructions.zipIdx hs

/-- What holds from some number of steps on for each element holds from some number on for all. -/
theorem enough_for_all {p : α → Nat → Prop} (h : ∀ a ∈ l, ∃ enough, ∀ steps ≥ enough, p a steps) :
    ∃ enough, ∀ steps ≥ enough, ∀ a ∈ l, p a steps := by
  induction l with
  | nil => exact ⟨0, fun _ _ _ ha => absurd ha List.not_mem_nil⟩
  | cons first rest ih =>
      obtain ⟨hfirst, hrest⟩ := List.forall_mem_cons.mp h
      obtain ⟨enough, hrest⟩ := ih hrest
      obtain ⟨enough', hfirst⟩ := hfirst
      refine ⟨max enough enough', fun steps hsteps => List.forall_mem_cons.mpr ⟨?_, ?_⟩⟩
      · exact hfirst steps (le_trans (le_max_right _ _) hsteps)
      · exact hrest steps (le_trans (le_max_left _ _) hsteps)

theorem mapM_isSome {β : Type} {f : α → Option β} (h : ∀ a ∈ l, (f a).isSome = true) :
    (l.mapM f).isSome = true := by
  induction l with
  | nil => rfl
  | cons first rest ih =>
      obtain ⟨hfirst, hrest⟩ := List.forall_mem_cons.mp h
      obtain ⟨b, hb⟩ := Option.isSome_iff_exists.mp hfirst
      obtain ⟨bs, hbs⟩ := Option.isSome_iff_exists.mp (ih hrest)
      rw [List.mapM_cons, hb, hbs]
      rfl

theorem foldlM_isSome {step : σ → α → Option σ}
    (h : ∀ a ∈ l, ∀ s, (step s a).isSome = true) (s : σ) : (l.foldlM step s).isSome = true := by
  induction l generalizing s with
  | nil => rfl
  | cons first rest ih =>
      obtain ⟨hfirst, hrest⟩ := List.forall_mem_cons.mp h
      obtain ⟨between, hbetween⟩ := Option.isSome_iff_exists.mp (hfirst s)
      rw [List.foldlM_cons, hbetween]
      exact ih hrest between

/-- **From some number of steps on the verifier has ended.** -/
theorem verify_isSome (module : Module) : ∃ enough, ∀ steps ≥ enough, (verify module steps).isSome = true := by
  have hinitialization : ∀ functions, ∀ function ∈ module.functions, ∃ enough, ∀ steps ≥ enough,
      ∀ context, (verifyFunction module functions steps context function).isSome = true := by
    intro functions function _
    obtain ⟨enough, hended⟩ := DefiniteInitialization.fixedPointOf_isSome (dataflowFunction
      (declareStorage ⟨[], 0, 0, 0⟩ function).2 functions function)
    refine ⟨enough, fun steps hsteps context => ?_⟩
    obtain ⟨facts, hfacts⟩ := hended steps hsteps
    unfold verifyFunction
    simp only [Option.isSome_map, DefiniteInitialization.analyze]
    rw [declareStorage_storage _ ⟨[], 0, 0, 0⟩, hfacts]
    rfl
  have hownership : ∀ function ∈ module.functions, ∃ enough, ∀ steps ≥ enough,
      (OwnershipFlow.analyze (adapt module.functionSymbols function) false steps).isSome = true := by
    intro function _
    obtain ⟨enough, hended⟩ := OwnershipFlow.fixedPointOf_isSome (adapt module.functionSymbols function)
    refine ⟨enough, fun steps hsteps => ?_⟩
    obtain ⟨facts, hfacts⟩ := hended steps hsteps
    rw [OwnershipFlow.analyze_eq, hfacts]
    rfl
  obtain ⟨enough, hinitialization⟩ := enough_for_all (hinitialization _)
  obtain ⟨enough', hownership⟩ := enough_for_all hownership
  refine ⟨max enough enough', fun steps hsteps => ?_⟩
  unfold verify
  simp only
  obtain ⟨checked, hchecked⟩ := Option.isSome_iff_exists.mp
    (foldlM_isSome (hinitialization steps (le_trans (le_max_left _ _) hsteps)) _)
  rw [hchecked]
  show ((verifyOwnership module steps).map _).isSome = true
  rw [Option.isSome_map]
  unfold verifyOwnership
  rw [Option.isSome_map]
  refine mapM_isSome fun function hfunction => ?_
  rw [Option.isSome_map]
  exact hownership steps (le_trans (le_max_right _ _) hsteps) function hfunction

end Tala.Xpp
