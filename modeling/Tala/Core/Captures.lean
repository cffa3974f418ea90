import Tala.Core.Verifier

/-!
# `Core.Captures` — what a closure takes from the place that creates it

A callable written without a capture list captures what its body reads and does not define. The names are found
in the lowered body: every name it reads free, once, in the order of the first read.

`discoverImplicitCaptures_complete` says that exactly the free reads are captured, and that a closure whose body
is accepted over its parameters and surroundings passes the rules for captures.
-/

namespace Tala.Core

open Tala Tala.Library

/-! ## Discovery -/

mutual

/-- The symbols a statement binds, in every branch and loop body. A closure among them is a scope of its own. -/
def statementLocals : CoreStatement → List Int
  | .coreBind name _ _ _ => [name.resolvedSymbol]
  | .coreIf _ yes no => localSymbols yes ++ localSymbols no
  | .coreWhile _ body => localSymbols body
  | .coreDoWhile body _ => localSymbols body
  | .coreFor _ body update => localSymbols body ++ localSymbols update
  | _ => []

def localSymbols : List CoreStatement → List Int
  | [] => []
  | statement :: remaining => statementLocals statement ++ localSymbols remaining

end

/-- The symbols that belong to a closure: its parameters, its captures and its locals. -/
def ownSymbols (captures : List CoreCapture) (parameters : List (ResolvedName × Ty)) (body : List CoreStatement) :
    List Int :=
  parameters.map (·.1.resolvedSymbol) ++ captures.map (·.coreCaptureName.resolvedSymbol) ++ localSymbols body

mutual

def statementReads : CoreStatement → List (ResolvedName × Ty)
  | .coreBind _ _ _ value => expressionReads value
  -- The target of an assignment is not read.
  | .coreAssign _ value => expressionReads value
  | .coreReturn value => expressionReads value
  | .coreIf condition yes no => expressionReads condition ++ statementsReads yes ++ statementsReads no
  | .coreWhile condition body => expressionReads condition ++ statementsReads body
  | .coreDoWhile body condition => statementsReads body ++ expressionReads condition
  | .coreFor condition body update => expressionReads condition ++ statementsReads body ++ statementsReads update
  | .coreEvaluate value => expressionReads value
  | .coreBreak => []
  | .coreContinue => []

def statementsReads : List CoreStatement → List (ResolvedName × Ty)
  | [] => []
  | statement :: remaining => statementReads statement ++ statementsReads remaining

def expressionReads : CoreExpression → List (ResolvedName × Ty)
  | .coreVariable name valueType => [(name, valueType)]
  | .coreLiteral _ _ => []
  | .coreApply callee arguments _ => expressionReads callee ++ expressionsReads arguments
  | .corePrimitive _ arguments _ => expressionsReads arguments
  | .coreLet name _ value body _ =>
      expressionReads value ++ (expressionReads body).filter (·.1.resolvedSymbol ≠ name.resolvedSymbol)
  | .coreConditional condition whenTrue whenFalse _ =>
      expressionReads condition ++ expressionReads whenTrue ++ expressionReads whenFalse
  -- A closure reads its capture initializers and what its body reads that is not its own.
  | .coreClosure captures parameters _ body _ =>
      captureReads captures ++
        (statementsReads body).filter (·.1.resolvedSymbol ∉ ownSymbols captures parameters body)

def expressionsReads : List CoreExpression → List (ResolvedName × Ty)
  | [] => []
  | expression :: remaining => expressionReads expression ++ expressionsReads remaining

def captureReads : List CoreCapture → List (ResolvedName × Ty)
  | [] => []
  | .coreCapture _ _ _ value :: remaining => expressionReads value ++ captureReads remaining

end

/-- One more read, unless its symbol was read before. -/
def appendRead (output : List (ResolvedName × Ty)) (value : ResolvedName × Ty) : List (ResolvedName × Ty) :=
  if output.any (·.1.resolvedSymbol = value.1.resolvedSymbol) then output else output ++ [value]

def uniqueReads (reads : List (ResolvedName × Ty)) : List (ResolvedName × Ty) := reads.foldl appendRead []

/-- What the body reads that is neither a parameter nor a local of the body. -/
def freeReads (parameters : List (ResolvedName × Ty)) (statements : List CoreStatement) : List (ResolvedName × Ty) :=
  let bound := parameters.map (·.1.resolvedSymbol) ++ localSymbols statements
  (statementsReads statements).filter (·.1.resolvedSymbol ∉ bound)

/-- The captures of a closure with the given parameters and body. -/
def discoverImplicitCaptures (parameters : List (ResolvedName × Ty)) (statements : List CoreStatement) :
    List CoreCapture :=
  (uniqueReads (freeReads parameters statements)).map fun read =>
    .coreCapture .strongCapture read.1 read.2 (.coreVariable read.1 read.2)

/-! ## Free reads -/

inductive CorePart
  | expression (value : CoreExpression)
  | statement (single : CoreStatement)

/-- The parts of a part that are computed with it, each with the symbols bound around it. -/
def CorePart.children : CorePart → List (List Int × CorePart)
  | .expression (.coreVariable _ _) => []
  | .expression (.coreLiteral _ _) => []
  | .expression (.coreApply callee arguments _) => (callee :: arguments).map fun value => ([], .expression value)
  | .expression (.corePrimitive _ arguments _) => arguments.map fun value => ([], .expression value)
  | .expression (.coreLet name _ value body _) =>
      [([], .expression value), ([name.resolvedSymbol], .expression body)]
  | .expression (.coreConditional condition whenTrue whenFalse _) =>
      [condition, whenTrue, whenFalse].map fun value => ([], .expression value)
  | .expression (.coreClosure captures parameters _ body _) =>
      (captures.map fun capture => ([], .expression capture.coreCaptureValue)) ++
        body.map fun single => (ownSymbols captures parameters body, .statement single)
  | .statement (.coreBind _ _ _ value) => [([], .expression value)]
  | .statement (.coreAssign _ value) => [([], .expression value)]
  | .statement (.coreReturn value) => [([], .expression value)]
  | .statement (.coreEvaluate value) => [([], .expression value)]
  | .statement (.coreIf condition yes no) =>
      ([], .expression condition) :: (yes ++ no).map fun single => ([], .statement single)
  | .statement (.coreWhile condition body) =>
      ([], .expression condition) :: body.map fun single => ([], .statement single)
  | .statement (.coreDoWhile body condition) =>
      (body.map fun single => ([], .statement single)) ++ [([], .expression condition)]
  | .statement (.coreFor condition body update) =>
      ([], .expression condition) :: (body ++ update).map fun single => ([], .statement single)
  | .statement .coreBreak => []
  | .statement .coreContinue => []

/-- A part reads a name free: it is the variable, or a child reads it outside what is bound around the child. -/
inductive ReadsFree (read : ResolvedName × Ty) : CorePart → Prop
  | itself : ReadsFree read (.expression (.coreVariable read.1 read.2))
  | inside {part child : CorePart} {bound : List Int} (hchild : (bound, child) ∈ part.children)
      (hfree : read.1.resolvedSymbol ∉ bound) (hread : ReadsFree read child) : ReadsFree read part

/-- The reads found in a part. -/
def partReads : CorePart → List (ResolvedName × Ty)
  | .expression value => expressionReads value
  | .statement single => statementReads single

section Reads

variable {read : ResolvedName × Ty} {part : CorePart} {body : List CoreStatement} {captures : List CoreCapture}
  {child : CorePart} {bound : List Int}

theorem mem_statementsReads : read ∈ statementsReads body ↔ ∃ single ∈ body, read ∈ statementReads single := by
  induction body with
  | nil => simp [statementsReads]
  | cons first remaining ih => simp [statementsReads, ih]

variable {operands : List CoreExpression}

theorem mem_expressionsReads :
    read ∈ expressionsReads operands ↔ ∃ value ∈ operands, read ∈ expressionReads value := by
  induction operands with
  | nil => simp [expressionsReads]
  | cons first remaining ih => simp [expressionsReads, ih]

theorem mem_captureReads :
    read ∈ captureReads captures ↔ ∃ capture ∈ captures, read ∈ expressionReads capture.coreCaptureValue := by
  induction captures with
  | nil => simp [captureReads]
  | cons first remaining ih =>
      cases first
      simp [captureReads, ih, CoreCapture.coreCaptureValue]

/-- The reads of a part are itself, when it is a variable, and those of its children outside what is bound there. -/
theorem mem_partReads_step :
    read ∈ partReads part ↔ part = .expression (.coreVariable read.1 read.2) ∨
      ∃ bound child, (bound, child) ∈ part.children ∧ read.1.resolvedSymbol ∉ bound ∧ read ∈ partReads child := by
  cases part with
  | expression value =>
      cases value with
      | coreVariable name valueType => simp [partReads, CorePart.children, expressionReads, Prod.ext_iff, eq_comm]
      | coreLet name bindingType value body valueType =>
          simp [partReads, CorePart.children, expressionReads, or_and_right, exists_or, and_comm]
      | coreClosure captures parameters returnType body valueType =>
          simp only [partReads, expressionReads, List.mem_append, List.mem_filter, mem_captureReads,
            mem_statementsReads, decide_eq_true_eq, CorePart.children, List.mem_map, Prod.mk.injEq, reduceCtorEq,
            CorePart.expression.injEq, false_or]
          constructor
          · rintro (⟨capture, hcapture, hread⟩ | ⟨⟨single, hsingle, hread⟩, hfree⟩)
            · exact ⟨_, _, .inl ⟨capture, hcapture, rfl, rfl⟩, List.not_mem_nil, hread⟩
            · exact ⟨_, _, .inr ⟨single, hsingle, rfl, rfl⟩, hfree, hread⟩
          · rintro ⟨_, _, ⟨capture, hcapture, rfl, rfl⟩ | ⟨single, hsingle, rfl, rfl⟩, hfree, hread⟩
            · exact .inl ⟨capture, hcapture, hread⟩
            · exact .inr ⟨⟨single, hsingle, hread⟩, hfree⟩
      | _ =>
          simp [partReads, CorePart.children, expressionReads, mem_expressionsReads, or_and_right, exists_or]
  | statement single =>
      cases single <;>
        simp [partReads, CorePart.children, statementReads, mem_statementsReads, or_and_right, exists_or]

theorem sizeOf_captureValue (capture : CoreCapture) : sizeOf capture.coreCaptureValue < sizeOf capture := by
  cases capture
  simp only [CoreCapture.coreCaptureValue, CoreCapture.coreCapture.sizeOf_spec]
  omega

theorem CorePart.sizeOf_children (h : (bound, child) ∈ part.children) : sizeOf child < sizeOf part := by
  have hlist : ∀ {α : Type} [SizeOf α] (members : List α), ∀ member ∈ members, sizeOf member < sizeOf members :=
    fun members member hmem => List.sizeOf_lt_of_mem hmem
  cases part with
  | expression value =>
      cases value <;> simp [CorePart.children] at h <;>
        grind [CorePart.expression.sizeOf_spec, CorePart.statement.sizeOf_spec, sizeOf_captureValue]
  | statement single =>
      cases single <;> simp [CorePart.children] at h <;>
        grind [CorePart.expression.sizeOf_spec, CorePart.statement.sizeOf_spec]

/-- The reads found in a part are those it reads free. -/
theorem mem_partReads (part : CorePart) : read ∈ partReads part ↔ ReadsFree read part := by
  constructor
  · intro h
    rcases mem_partReads_step.mp h with rfl | ⟨bound, child, hchild, hfree, hread⟩
    · exact .itself
    · have hless := CorePart.sizeOf_children hchild
      exact .inside hchild hfree ((mem_partReads child).mp hread)
  · intro h
    induction h with
    | itself => exact mem_partReads_step.mpr (.inl rfl)
    | inside hchild hfree _ ih => exact mem_partReads_step.mpr (.inr ⟨_, _, hchild, hfree, ih⟩)
termination_by sizeOf part

end Reads

/-! ## One capture for each symbol -/

section Unique

variable {reads output : List (ResolvedName × Ty)} {read : ResolvedName × Ty}

/-- The first of the reads of a symbol. -/
def firstRead (symbol : Int) (reads : List (ResolvedName × Ty)) : Option (ResolvedName × Ty) :=
  reads.find? (·.1.resolvedSymbol = symbol)

theorem firstRead_foldl (symbol : Int) :
    firstRead symbol (reads.foldl appendRead output) = firstRead symbol (output ++ reads) := by
  induction reads generalizing output with
  | nil => simp
  | cons first remaining ih =>
      rw [List.foldl_cons, ih]
      by_cases hseen : output.any (·.1.resolvedSymbol = first.1.resolvedSymbol)
      · rw [appendRead, if_pos hseen, firstRead, firstRead, List.find?_append, List.find?_append]
        by_cases hsymbol : first.1.resolvedSymbol = symbol
        · subst hsymbol
          obtain ⟨earlier, hearlier⟩ :=
            Option.isSome_iff_exists.mp (List.find?_isSome.mpr (List.any_eq_true.mp hseen))
          rw [hearlier]
          rfl
        · rw [List.find?_cons_of_neg (by simpa using hsymbol)]
      · rw [appendRead, if_neg hseen, List.append_assoc, List.singleton_append]

theorem firstRead_uniqueReads (symbol : Int) : firstRead symbol (uniqueReads reads) = firstRead symbol reads :=
  firstRead_foldl symbol

theorem nodup_foldl_appendRead (h : (output.map (·.1.resolvedSymbol)).Nodup) :
    ((reads.foldl appendRead output).map (·.1.resolvedSymbol)).Nodup := by
  induction reads generalizing output with
  | nil => exact h
  | cons first remaining ih =>
      refine ih ?_
      by_cases hseen : output.any (·.1.resolvedSymbol = first.1.resolvedSymbol)
      · rwa [appendRead, if_pos hseen]
      · rw [appendRead, if_neg hseen, List.map_append]
        refine List.nodup_append.mpr ⟨h, List.nodup_singleton _, fun symbol hsymbol other hother heq => hseen ?_⟩
        obtain ⟨earlier, hmem, rfl⟩ := List.mem_map.mp hsymbol
        obtain rfl := List.mem_singleton.mp hother
        exact List.any_eq_true.mpr ⟨earlier, hmem, by simpa using heq⟩

theorem nodup_uniqueReads : ((uniqueReads reads).map (·.1.resolvedSymbol)).Nodup :=
  nodup_foldl_appendRead List.nodup_nil

theorem foldl_appendRead_sublist : List.Sublist (reads.foldl appendRead output) (output ++ reads) := by
  induction reads generalizing output with
  | nil => simp
  | cons first remaining ih =>
      refine ih.trans ?_
      by_cases hseen : output.any (·.1.resolvedSymbol = first.1.resolvedSymbol)
      · rw [appendRead, if_pos hseen]
        exact List.Sublist.append (List.Sublist.refl _) (List.sublist_cons_self _ _)
      · rw [appendRead, if_neg hseen, List.append_assoc, List.singleton_append]

theorem uniqueReads_sublist : List.Sublist (uniqueReads reads) reads := foldl_appendRead_sublist

/-- What is kept is the first read of its symbol. -/
theorem firstRead_of_mem_uniqueReads (h : read ∈ uniqueReads reads) :
    firstRead read.1.resolvedSymbol reads = some read := by
  rw [← firstRead_uniqueReads]
  cases hfind : firstRead read.1.resolvedSymbol (uniqueReads reads) with
  | none => exact absurd (List.find?_eq_none.mp hfind read h) (by simp)
  | some found =>
      have hsymbol : found.1.resolvedSymbol = read.1.resolvedSymbol := by simpa using List.find?_some hfind
      rw [List.inj_on_of_nodup_map nodup_uniqueReads (List.mem_of_find?_eq_some hfind) h hsymbol]

/-- Every symbol read is kept. -/
theorem exists_mem_uniqueReads (h : read ∈ reads) :
    ∃ kept ∈ uniqueReads reads, kept.1.resolvedSymbol = read.1.resolvedSymbol := by
  have hsome : (firstRead read.1.resolvedSymbol reads).isSome :=
    List.find?_isSome.mpr ⟨read, h, by simp⟩
  rw [← firstRead_uniqueReads] at hsome
  obtain ⟨kept, hkept⟩ := Option.isSome_iff_exists.mp hsome
  exact ⟨kept, List.mem_of_find?_eq_some hkept, by simpa using List.find?_some hkept⟩

end Unique

/-! ## Scopes -/

/-- The second scope has the symbols of the first with their types; more of them may be assigned. -/
def Widens (narrow wide : Environment) : Prop :=
  ∀ symbol, match narrow.find symbol with
    | none => wide.find symbol = none
    | some (type, assignable) => ∃ assignable', wide.find symbol = some (type, assignable') ∧
        (assignable = true → assignable' = true)

section Scopes

variable {narrow wide : Environment}

theorem Widens.find_none (h : Widens narrow wide) {symbol : Int} (hnone : narrow.find symbol = none) :
    wide.find symbol = none := by
  have hsymbol := h symbol
  rwa [hnone] at hsymbol

theorem Widens.find_some (h : Widens narrow wide) {symbol : Int} {type : Ty} {assignable : Bool}
    (hsome : narrow.find symbol = some (type, assignable)) :
    ∃ assignable', wide.find symbol = some (type, assignable') ∧ (assignable = true → assignable' = true) := by
  have hsymbol := h symbol
  rwa [hsome] at hsymbol

theorem Widens.insert (h : Widens narrow wide) (symbol : Int) (entry : Ty × Bool) :
    Widens (narrow.insert symbol entry) (wide.insert symbol entry) := by
  intro other
  rw [SortedMap.find_insert, SortedMap.find_insert]
  by_cases hother : symbol = other
  · rw [if_pos hother, if_pos hother]
    exact ⟨entry.2, rfl, id⟩
  · rw [if_neg hother, if_neg hother]
    exact h other

theorem Widens.union (h : Widens narrow wide) (inner : Environment) :
    Widens (inner.union narrow) (inner.union wide) := by
  intro symbol
  rw [SortedMap.find_union, SortedMap.find_union]
  cases hfind : inner.find symbol with
  | none => exact h symbol
  | some entry => exact ⟨entry.2, rfl, id⟩

theorem Widens.closure (h : Widens narrow wide) (captures : List CoreCapture)
    (parameters : List (ResolvedName × Ty)) :
    Widens (closureEnvironment narrow captures parameters) (closureEnvironment wide captures parameters) :=
  (h.union _).union _

theorem Widens.statement (h : Widens narrow wide) (single : CoreStatement) :
    Widens (statementEnvironment narrow single) (statementEnvironment wide single) := by
  cases single with
  | coreBind name type assignable value => exact h.insert _ _
  | _ => exact h

end Scopes

/-! ## Acceptance in a wider scope -/

mutual

/-- What is accepted in a scope is accepted in a wider one. -/
theorem verifyExpression_widen {narrow wide : Environment} (h : Widens narrow wide) :
    ∀ value : CoreExpression, verifyExpression narrow value = [] → verifyExpression wide value = []
  | .coreVariable name valueType, haccepted => by
      obtain ⟨htype, hpositive, assignable, hfind⟩ := verifyExpression_coreVariable.mp haccepted
      obtain ⟨assignable', hfind', -⟩ := h.find_some hfind
      exact verifyExpression_coreVariable.mpr ⟨htype, hpositive, assignable', hfind'⟩
  | .coreLiteral literal valueType, haccepted =>
      verifyExpression_coreLiteral.mpr (verifyExpression_coreLiteral.mp haccepted)
  | .coreApply callee arguments valueType, haccepted => by
      obtain ⟨htype, hcallee, harguments, hcall⟩ := verifyExpression_coreApply.mp haccepted
      exact verifyExpression_coreApply.mpr ⟨htype, verifyExpression_widen h callee hcallee,
        verifyExpressions_widen h arguments harguments, hcall⟩
  | .corePrimitive primitive arguments valueType, haccepted => by
      obtain ⟨htype, harguments, hprimitive⟩ := verifyExpression_corePrimitive.mp haccepted
      exact verifyExpression_corePrimitive.mpr ⟨htype, verifyExpressions_widen h arguments harguments, hprimitive⟩
  | .coreLet name bindingType value body valueType, haccepted => by
      obtain ⟨htype, hpositive, hbinding, hvalue, heq, hbody, hresult⟩ := verifyExpression_coreLet.mp haccepted
      exact verifyExpression_coreLet.mpr ⟨htype, hpositive, hbinding, verifyExpression_widen h value hvalue, heq,
        verifyExpression_widen (h.insert _ _) body hbody, hresult⟩
  | .coreConditional condition whenTrue whenFalse valueType, haccepted => by
      obtain ⟨htype, hcondition, htest, hyes, hno, hrest⟩ := verifyExpression_coreConditional.mp haccepted
      exact verifyExpression_coreConditional.mpr ⟨htype, verifyExpression_widen h condition hcondition, htest,
        verifyExpression_widen h whenTrue hyes, verifyExpression_widen h whenFalse hno, hrest⟩
  | .coreClosure captures parameters returnType body valueType, haccepted => by
      obtain ⟨htype, hdistinct, hunrepeated, hcaptures, hparameters, hcallable, hbody, hreturns⟩ :=
        verifyExpression_coreClosure.mp haccepted
      exact verifyExpression_coreClosure.mpr ⟨htype, hdistinct, hunrepeated,
        verifyCaptures_widen h captures hcaptures, hparameters, hcallable,
        verifyStatements_widen (h.closure captures parameters) body hbody, hreturns⟩

theorem verifyExpressions_widen {narrow wide : Environment} (h : Widens narrow wide) :
    ∀ values : List CoreExpression, verifyExpressions narrow values = [] → verifyExpressions wide values = []
  | [], _ => verifyExpressions_nil
  | value :: remaining, haccepted => by
      obtain ⟨hvalue, hremaining⟩ := verifyExpressions_cons.mp haccepted
      exact verifyExpressions_cons.mpr ⟨verifyExpression_widen h value hvalue,
        verifyExpressions_widen h remaining hremaining⟩

theorem verifyCaptures_widen {narrow wide : Environment} (h : Widens narrow wide) :
    ∀ captures : List CoreCapture, verifyCaptures narrow captures = [] → verifyCaptures wide captures = []
  | [], _ => by rw [verifyCaptures]
  | .coreCapture mode name type value :: remaining, haccepted => by
      obtain ⟨hpositive, htype, hvalue, heq, hremaining⟩ := verifyCaptures_cons.mp haccepted
      exact verifyCaptures_cons.mpr ⟨hpositive, htype, verifyExpression_widen h value hvalue, heq,
        verifyCaptures_widen h remaining hremaining⟩

theorem verifyStatement_widen {narrow wide : Environment} {returnType : Ty} {scope : TransferScope}
    (h : Widens narrow wide) : ∀ single : CoreStatement,
    verifyStatement narrow returnType scope single = [] → verifyStatement wide returnType scope single = []
  | .coreBind name type assignable value, haccepted => by
      obtain ⟨hpositive, htype, hundefined, heq, hvalue⟩ := verifyStatement_coreBind.mp haccepted
      exact verifyStatement_coreBind.mpr ⟨hpositive, htype, h.find_none hundefined, heq,
        verifyExpression_widen h value hvalue⟩
  | .coreAssign name value, haccepted => by
      obtain ⟨hpositive, hvalue, hfind⟩ := verifyStatement_coreAssign.mp haccepted
      obtain ⟨assignable, hfind', hassignable⟩ := h.find_some hfind
      rw [hassignable rfl] at hfind'
      exact verifyStatement_coreAssign.mpr ⟨hpositive, verifyExpression_widen h value hvalue, hfind'⟩
  | .coreReturn value, haccepted => by
      obtain ⟨hvalue, heq⟩ := verifyStatement_coreReturn.mp haccepted
      exact verifyStatement_coreReturn.mpr ⟨verifyExpression_widen h value hvalue, heq⟩
  | .coreIf condition whenTrue whenFalse, haccepted => by
      obtain ⟨hcondition, htest, hyes, hno⟩ := verifyStatement_coreIf.mp haccepted
      exact verifyStatement_coreIf.mpr ⟨verifyExpression_widen h condition hcondition, htest,
        verifyStatements_widen h whenTrue hyes, verifyStatements_widen h whenFalse hno⟩
  | .coreEvaluate value, haccepted =>
      verifyStatement_coreEvaluate.mpr (verifyExpression_widen h value (verifyStatement_coreEvaluate.mp haccepted))
  | .coreWhile condition body, haccepted => by
      obtain ⟨hcondition, htest, hbody⟩ := verifyStatement_coreWhile.mp haccepted
      exact verifyStatement_coreWhile.mpr ⟨verifyExpression_widen h condition hcondition, htest,
        verifyStatements_widen h body hbody⟩
  | .coreDoWhile body condition, haccepted => by
      obtain ⟨hbody, hcondition, htest⟩ := verifyStatement_coreDoWhile.mp haccepted
      exact verifyStatement_coreDoWhile.mpr ⟨verifyStatements_widen h body hbody,
        verifyExpression_widen h condition hcondition, htest⟩
  | .coreFor condition body update, haccepted => by
      obtain ⟨hcondition, htest, hbody, hupdate⟩ := verifyStatement_coreFor.mp haccepted
      exact verifyStatement_coreFor.mpr ⟨verifyExpression_widen h condition hcondition, htest,
        verifyStatements_widen h body hbody, verifyStatements_widen h update hupdate⟩
  | .coreBreak, haccepted => verifyStatement_coreBreak.mpr (verifyStatement_coreBreak.mp haccepted)
  | .coreContinue, haccepted => verifyStatement_coreContinue.mpr (verifyStatement_coreContinue.mp haccepted)

theorem verifyStatements_widen {narrow wide : Environment} {returnType : Ty} {scope : TransferScope}
    (h : Widens narrow wide) : ∀ body : List CoreStatement,
    verifyStatements narrow returnType scope body = [] → verifyStatements wide returnType scope body = []
  | [], _ => by rw [verifyStatements]
  | single :: remaining, haccepted => by
      obtain ⟨hsingle, hremaining⟩ := verifyStatements_cons.mp haccepted
      exact verifyStatements_cons.mpr ⟨verifyStatement_widen h single hsingle,
        verifyStatements_widen (h.statement single) remaining hremaining⟩

end

/-! ## What is read is in scope -/

/-- A part is accepted in a scope. -/
def Accepted (environment : Environment) : CorePart → Prop
  | .expression value => verifyExpression environment value = []
  | .statement single => ∃ returnType scope, verifyStatement environment returnType scope single = []

def partLocals : CorePart → List Int
  | .expression _ => []
  | .statement single => statementLocals single

section Scoped

variable {environment : Environment} {symbol : Int}

theorem find_statementEnvironment (single : CoreStatement) (h : symbol ∉ statementLocals single) :
    (statementEnvironment environment single).find symbol = environment.find symbol := by
  cases single with
  | coreBind name type assignable value =>
      have hne : name.resolvedSymbol ≠ symbol := fun heq => h (by simp [statementLocals, heq])
      rw [statementEnvironment, SortedMap.find_insert, if_neg hne]
  | _ => rfl

variable {returnType : Ty} {scope : TransferScope} {body : List CoreStatement} {single : CoreStatement}
  {parameters : List (ResolvedName × Ty)} {captures : List CoreCapture} {child : CorePart} {bound : List Int}
  {capture : CoreCapture}

/-- Each of some accepted statements is accepted in a scope that differs in the locals only. -/
theorem exists_accepted_statement (haccepted : verifyStatements environment returnType scope body = [])
    (hmem : single ∈ body) (hlocal : symbol ∉ localSymbols body) :
    ∃ inner, Accepted inner (.statement single) ∧ inner.find symbol = environment.find symbol ∧
      symbol ∉ statementLocals single := by
  induction body generalizing environment with
  | nil => cases hmem
  | cons first remaining ih =>
      obtain ⟨hfirst, hremaining⟩ := verifyStatements_cons.mp haccepted
      rw [localSymbols, List.mem_append, not_or] at hlocal
      rcases List.mem_cons.mp hmem with rfl | hmem
      · exact ⟨environment, ⟨returnType, scope, hfirst⟩, rfl, hlocal.1⟩
      · obtain ⟨inner, hinner, hfind, hsingle⟩ := ih hremaining hmem hlocal.2
        exact ⟨inner, hinner, hfind.trans (find_statementEnvironment first hlocal.1), hsingle⟩

theorem find_ofList_eq_none {entries : List (Int × (Ty × Bool))} (h : symbol ∉ entries.map Prod.fst) :
    (SortedMap.ofList entries).find symbol = none := by
  rw [SortedMap.find_ofList]
  refine SortedMap.findEntry_eq_none_of_forall fun entry hmem heq => h ?_
  exact List.mem_map.mpr ⟨entry, List.mem_reverse.mp hmem, heq⟩

theorem find_parameterEnvironment
    (h : symbol ∉ parameters.map (·.1.resolvedSymbol)) : (parameterEnvironment parameters).find symbol = none :=
  find_ofList_eq_none (by simpa using h)

theorem find_captureEnvironment (h : symbol ∉ captures.map (·.coreCaptureName.resolvedSymbol)) :
    (captureEnvironment captures).find symbol = none :=
  find_ofList_eq_none (by simpa using h)

theorem find_closureEnvironment (hparameters : symbol ∉ parameters.map (·.1.resolvedSymbol))
    (hcaptures : symbol ∉ captures.map (·.coreCaptureName.resolvedSymbol)) :
    (closureEnvironment environment captures parameters).find symbol = environment.find symbol := by
  rw [closureEnvironment, SortedMap.find_union, SortedMap.find_union, find_parameterEnvironment hparameters,
    find_captureEnvironment hcaptures]
  rfl

theorem exists_accepted_operand {operands : List CoreExpression}
    (haccepted : ∀ value ∈ operands, verifyExpression environment value = [])
    (hchild : (bound, child) ∈ operands.map fun value => (([] : List Int), CorePart.expression value)) :
    ∃ inner, Accepted inner child ∧ inner.find symbol = environment.find symbol ∧ symbol ∉ partLocals child := by
  obtain ⟨value, hmem, heq⟩ := List.mem_map.mp hchild
  obtain ⟨rfl, rfl⟩ := Prod.mk.inj heq
  exact ⟨environment, haccepted value hmem, rfl, List.not_mem_nil⟩

theorem exists_accepted_single (haccepted : verifyStatements environment returnType scope body = [])
    (hlocal : symbol ∉ localSymbols body)
    (hchild : (bound, child) ∈ body.map fun single => (([] : List Int), CorePart.statement single)) :
    ∃ inner, Accepted inner child ∧ inner.find symbol = environment.find symbol ∧ symbol ∉ partLocals child := by
  obtain ⟨single, hmem, heq⟩ := List.mem_map.mp hchild
  obtain ⟨rfl, rfl⟩ := Prod.mk.inj heq
  exact exists_accepted_statement haccepted hmem hlocal

theorem accepted_captureValue (haccepted : verifyCaptures environment captures = []) (hmem : capture ∈ captures) :
    verifyExpression environment capture.coreCaptureValue = [] := by
  induction captures with
  | nil => cases hmem
  | cons first remaining ih =>
      cases first
      obtain ⟨-, -, hvalue, -, hremaining⟩ := verifyCaptures_cons.mp haccepted
      rcases List.mem_cons.mp hmem with rfl | hmem
      · exact hvalue
      · exact ih hremaining hmem

theorem find_captureEnvironment_some {entry : Ty × Bool}
    (hdistinct : (captures.map (·.coreCaptureName.resolvedSymbol)).Nodup)
    (h : (captureEnvironment captures).find symbol = some entry) :
    ∃ capture ∈ captures, capture.coreCaptureName.resolvedSymbol = symbol ∧
      entry = (capture.coreCaptureType, true) := by
  rw [captureEnvironment, SortedMap.find_ofList_eq_some_iff (by rwa [List.map_map])] at h
  obtain ⟨capture, hcapture, heq⟩ := List.mem_map.mp h
  obtain ⟨hsymbol, rfl⟩ := Prod.mk.inj heq
  exact ⟨capture, hcapture, hsymbol, rfl⟩

/-- A symbol that is not bound around a child of an expression is found there as it is found outside. -/
theorem exists_accepted_of_expression {value : CoreExpression}
    (hchild : (bound, child) ∈ (CorePart.expression value).children) (hfree : symbol ∉ bound)
    (haccepted : verifyExpression environment value = []) :
    ∃ inner, Accepted inner child ∧ inner.find symbol = environment.find symbol ∧ symbol ∉ partLocals child := by
  cases value with
  | coreVariable name valueType => cases hchild
  | coreLiteral literal valueType => cases hchild
  | coreApply callee arguments valueType =>
      obtain ⟨-, hcallee, harguments, -⟩ := verifyExpression_coreApply.mp haccepted
      exact exists_accepted_operand
        (List.forall_mem_cons.mpr ⟨hcallee, verifyExpressions_forall.mp harguments⟩) hchild
  | corePrimitive primitive arguments valueType =>
      obtain ⟨-, harguments, -⟩ := verifyExpression_corePrimitive.mp haccepted
      exact exists_accepted_operand (verifyExpressions_forall.mp harguments) hchild
  | coreLet name bindingType value body valueType =>
      obtain ⟨-, -, -, hvalue, -, hbody, -⟩ := verifyExpression_coreLet.mp haccepted
      rcases List.mem_cons.mp hchild with heq | hchild
      · obtain ⟨rfl, rfl⟩ := Prod.mk.inj heq
        exact ⟨environment, hvalue, rfl, List.not_mem_nil⟩
      · obtain ⟨rfl, rfl⟩ := Prod.mk.inj (List.mem_singleton.mp hchild)
        have hne : name.resolvedSymbol ≠ symbol := fun heq => hfree (List.mem_singleton.mpr heq.symm)
        exact ⟨_, hbody, by rw [SortedMap.find_insert, if_neg hne], List.not_mem_nil⟩
  | coreConditional condition whenTrue whenFalse valueType =>
      obtain ⟨-, hcondition, -, hyes, hno, -⟩ := verifyExpression_coreConditional.mp haccepted
      exact exists_accepted_operand (by simp [hcondition, hyes, hno]) hchild
  | coreClosure captures parameters returnType body valueType =>
      obtain ⟨-, -, -, hcaptures, -, -, hbody, -⟩ := verifyExpression_coreClosure.mp haccepted
      rcases List.mem_append.mp hchild with hchild | hchild
      · obtain ⟨capture, hmem, heq⟩ := List.mem_map.mp hchild
        obtain ⟨rfl, rfl⟩ := Prod.mk.inj heq
        exact ⟨environment, accepted_captureValue hcaptures hmem, rfl, List.not_mem_nil⟩
      · obtain ⟨single, hmem, heq⟩ := List.mem_map.mp hchild
        obtain ⟨rfl, rfl⟩ := Prod.mk.inj heq
        -- Parameters, captures and locals of the closure are bound around its body.
        rw [ownSymbols, List.mem_append, List.mem_append, not_or, not_or] at hfree
        obtain ⟨inner, hinner, hfind, hsingle⟩ := exists_accepted_statement hbody hmem hfree.2
        exact ⟨inner, hinner, hfind.trans (find_closureEnvironment hfree.1.1 hfree.1.2), hsingle⟩

/-- A symbol that is no local of a statement is found in its children as it is found outside. -/
theorem exists_accepted_of_statement
    (hchild : (bound, child) ∈ (CorePart.statement single).children) (hlocal : symbol ∉ statementLocals single)
    (haccepted : verifyStatement environment returnType scope single = []) :
    ∃ inner, Accepted inner child ∧ inner.find symbol = environment.find symbol ∧ symbol ∉ partLocals child := by
  have hvalue : ∀ value, verifyExpression environment value = [] → (bound, child) = ([], .expression value) →
      ∃ inner, Accepted inner child ∧ inner.find symbol = environment.find symbol ∧ symbol ∉ partLocals child := by
    intro value hvalue heq
    obtain ⟨rfl, rfl⟩ := Prod.mk.inj heq
    exact ⟨environment, hvalue, rfl, List.not_mem_nil⟩
  cases single with
  | coreBind name type assignable value =>
      exact hvalue value (verifyStatement_coreBind.mp haccepted).2.2.2.2 (List.mem_singleton.mp hchild)
  | coreAssign name value =>
      exact hvalue value (verifyStatement_coreAssign.mp haccepted).2.1 (List.mem_singleton.mp hchild)
  | coreReturn value =>
      exact hvalue value (verifyStatement_coreReturn.mp haccepted).1 (List.mem_singleton.mp hchild)
  | coreEvaluate value =>
      exact hvalue value (verifyStatement_coreEvaluate.mp haccepted) (List.mem_singleton.mp hchild)
  | coreIf condition yes no =>
      obtain ⟨hcondition, -, hyes, hno⟩ := verifyStatement_coreIf.mp haccepted
      rw [statementLocals, List.mem_append, not_or] at hlocal
      rcases List.mem_cons.mp hchild with heq | hchild
      · exact hvalue condition hcondition heq
      · rw [List.map_append] at hchild
        rcases List.mem_append.mp hchild with hchild | hchild
        · exact exists_accepted_single hyes hlocal.1 hchild
        · exact exists_accepted_single hno hlocal.2 hchild
  | coreWhile condition body =>
      obtain ⟨hcondition, -, hbody⟩ := verifyStatement_coreWhile.mp haccepted
      rcases List.mem_cons.mp hchild with heq | hchild
      · exact hvalue condition hcondition heq
      · exact exists_accepted_single hbody hlocal hchild
  | coreDoWhile body condition =>
      obtain ⟨hbody, hcondition, -⟩ := verifyStatement_coreDoWhile.mp haccepted
      rcases List.mem_append.mp hchild with hchild | hchild
      · exact exists_accepted_single hbody hlocal hchild
      · exact hvalue condition hcondition (List.mem_singleton.mp hchild)
  | coreFor condition body update =>
      obtain ⟨hcondition, -, hbody, hupdate⟩ := verifyStatement_coreFor.mp haccepted
      rw [statementLocals, List.mem_append, not_or] at hlocal
      rcases List.mem_cons.mp hchild with heq | hchild
      · exact hvalue condition hcondition heq
      · rw [List.map_append] at hchild
        rcases List.mem_append.mp hchild with hchild | hchild
        · exact exists_accepted_single hbody hlocal.1 hchild
        · exact exists_accepted_single hupdate hlocal.2 hchild
  | coreBreak => cases hchild
  | coreContinue => cases hchild

/-- What an accepted part reads free is in scope, with the type it is read at. -/
theorem ReadsFree.in_scope {read : ResolvedName × Ty} {part : CorePart} (h : ReadsFree read part)
    (hlocal : read.1.resolvedSymbol ∉ partLocals part) (haccepted : Accepted environment part) :
    0 < read.1.resolvedSymbol ∧ ResolvedType read.2 ∧
      ∃ assignable, environment.find read.1.resolvedSymbol = some (read.2, assignable) := by
  induction h generalizing environment with
  | itself =>
      obtain ⟨htype, hpositive, hfind⟩ := verifyExpression_coreVariable.mp haccepted
      exact ⟨hpositive, htype, hfind⟩
  | @inside part child bound hchild hfree _ ih =>
      have hinside : ∃ inner, Accepted inner child ∧ inner.find read.1.resolvedSymbol =
          environment.find read.1.resolvedSymbol ∧ read.1.resolvedSymbol ∉ partLocals child := by
        cases part with
        | expression value => exact exists_accepted_of_expression hchild hfree haccepted
        | statement single =>
            obtain ⟨returnType, scope, hsingle⟩ := haccepted
            exact exists_accepted_of_statement hchild hlocal hsingle
      obtain ⟨inner, hinner, hfind, hlocal⟩ := hinside
      rw [← hfind]
      exact ih hlocal hinner

end Scoped

/-! ## Completeness -/

/-- Somewhere the body reads a name free. -/
def BodyReads (body : List CoreStatement) (read : ResolvedName × Ty) : Prop :=
  ∃ single ∈ body, ReadsFree read (.statement single)

/-- The symbols that belong to a closure without its captures. -/
def boundSymbols (parameters : List (ResolvedName × Ty)) (body : List CoreStatement) : List Int :=
  parameters.map (·.1.resolvedSymbol) ++ localSymbols body

/-- The captures are the free reads of a body that nothing of the closure binds, each symbol once. -/
structure CapturesReads (parameters : List (ResolvedName × Ty)) (body : List CoreStatement)
    (captures : List CoreCapture) : Prop where
  distinct : (captures.map (·.coreCaptureName.resolvedSymbol)).Nodup
  complete : ∀ read, BodyReads body read → read.1.resolvedSymbol ∉ boundSymbols parameters body →
    ∃ capture ∈ captures, capture.coreCaptureName.resolvedSymbol = read.1.resolvedSymbol
  sound : ∀ capture ∈ captures, BodyReads body (capture.coreCaptureName, capture.coreCaptureType) ∧
    capture.coreCaptureName.resolvedSymbol ∉ boundSymbols parameters body ∧
    capture.coreCaptureValue = .coreVariable capture.coreCaptureName capture.coreCaptureType
  /-- In the order of the first read, with the type of that read. -/
  first : ∀ capture ∈ captures, firstRead capture.coreCaptureName.resolvedSymbol (freeReads parameters body) =
    some (capture.coreCaptureName, capture.coreCaptureType)
  ordered : List.Sublist (captures.map fun capture => (capture.coreCaptureName, capture.coreCaptureType))
    (freeReads parameters body)

section Completeness

variable {parameters : List (ResolvedName × Ty)} {body : List CoreStatement} {read : ResolvedName × Ty}

theorem mem_freeReads : read ∈ freeReads parameters body ↔
    BodyReads body read ∧ read.1.resolvedSymbol ∉ boundSymbols parameters body := by
  rw [freeReads, List.mem_filter, mem_statementsReads, decide_eq_true_eq]
  exact and_congr_left' (exists_congr fun single => and_congr_right fun _ => mem_partReads (.statement single))

theorem mem_discoverImplicitCaptures {capture : CoreCapture} : capture ∈ discoverImplicitCaptures parameters body ↔
    ∃ read ∈ uniqueReads (freeReads parameters body),
      .coreCapture .strongCapture read.1 read.2 (.coreVariable read.1 read.2) = capture :=
  List.mem_map

theorem discoverImplicitCaptures_reads :
    CapturesReads parameters body (discoverImplicitCaptures parameters body) where
  distinct := by
    rw [discoverImplicitCaptures, List.map_map]
    exact nodup_uniqueReads
  complete read hread hfree := by
    obtain ⟨kept, hkept, hsymbol⟩ := exists_mem_uniqueReads (mem_freeReads.mpr ⟨hread, hfree⟩)
    exact ⟨_, mem_discoverImplicitCaptures.mpr ⟨kept, hkept, rfl⟩, hsymbol⟩
  sound capture hmem := by
    obtain ⟨kept, hkept, rfl⟩ := mem_discoverImplicitCaptures.mp hmem
    obtain ⟨hread, hfree⟩ := mem_freeReads.mp (uniqueReads_sublist.subset hkept)
    exact ⟨hread, hfree, rfl⟩
  first capture hmem := by
    obtain ⟨kept, hkept, rfl⟩ := mem_discoverImplicitCaptures.mp hmem
    exact firstRead_of_mem_uniqueReads hkept
  ordered := by
    rw [discoverImplicitCaptures, List.map_map]
    exact (List.map_id _).symm ▸ uniqueReads_sublist

variable {environment : Environment} {reads : List (ResolvedName × Ty)}

/-- Reads that are in scope make captures that are accepted there. -/
theorem verifyCaptures_of_reads (h : ∀ read ∈ reads, 0 < read.1.resolvedSymbol ∧ ResolvedType read.2 ∧
      ∃ assignable, environment.find read.1.resolvedSymbol = some (read.2, assignable)) :
    verifyCaptures environment
      (reads.map fun read => .coreCapture .strongCapture read.1 read.2 (.coreVariable read.1 read.2)) = [] := by
  induction reads with
  | nil => rw [List.map_nil, verifyCaptures]
  | cons first remaining ih =>
      obtain ⟨⟨hpositive, htype, hfind⟩, hremaining⟩ := List.forall_mem_cons.mp h
      exact verifyCaptures_cons.mpr ⟨hpositive, htype,
        verifyExpression_coreVariable.mpr ⟨htype, hpositive, hfind⟩, rfl, ih hremaining⟩

/-- The free reads of a body accepted over its parameters and surroundings are found in the surroundings. -/
theorem freeReads_in_scope {returnType : Ty}
    (haccepted : verifyStatements ((parameterEnvironment parameters).union environment) returnType .outsideLoop body
      = []) (hmem : read ∈ freeReads parameters body) :
    0 < read.1.resolvedSymbol ∧ ResolvedType read.2 ∧
      ∃ assignable, environment.find read.1.resolvedSymbol = some (read.2, assignable) := by
  obtain ⟨⟨single, hsingle, hread⟩, hfree⟩ := mem_freeReads.mp hmem
  rw [boundSymbols, List.mem_append, not_or] at hfree
  obtain ⟨inner, hinner, hfind, hlocal⟩ := exists_accepted_statement haccepted hsingle hfree.2
  have hscope := hread.in_scope hlocal hinner
  rw [hfind, SortedMap.find_union, find_parameterEnvironment hfree.1] at hscope
  exact hscope

/-- The scope of the body with its captures widens the one of its parameters and surroundings. -/
theorem widens_closureEnvironment (hdistinct : (reads.map (·.1.resolvedSymbol)).Nodup)
    (h : ∀ read ∈ reads, ∃ assignable, environment.find read.1.resolvedSymbol = some (read.2, assignable)) :
    Widens ((parameterEnvironment parameters).union environment)
      (closureEnvironment environment (reads.map fun read =>
        .coreCapture .strongCapture read.1 read.2 (.coreVariable read.1 read.2)) parameters) := by
  refine Widens.union (fun symbol => ?_) _
  rw [SortedMap.find_union]
  cases hcapture : (captureEnvironment (reads.map fun read =>
      .coreCapture .strongCapture read.1 read.2 (.coreVariable read.1 read.2))).find symbol with
  | none =>
      cases hfind : environment.find symbol with
      | none => rfl
      | some entry => exact ⟨entry.2, rfl, id⟩
  | some entry =>
      obtain ⟨capture, hmem, rfl, rfl⟩ := find_captureEnvironment_some (by rwa [List.map_map]) hcapture
      obtain ⟨read, hread, rfl⟩ := List.mem_map.mp hmem
      obtain ⟨assignable, hfind⟩ := h read hread
      simp only [CoreCapture.coreCaptureName, hfind]
      exact ⟨true, rfl, fun _ => rfl⟩

end Completeness

/-- The body `{ local = seed; return local + parameter; }`. -/
def sampleBody : List CoreStatement :=
  [.coreBind ⟨3, "local"⟩ intType false (.coreVariable ⟨1, "seed"⟩ intType),
    .coreReturn (.corePrimitive .coreAdd
      [.coreVariable ⟨3, "local"⟩ intType, .coreVariable ⟨2, "parameter"⟩ intType] intType)]

/-- The scope of a variable `seed` that may be assigned. -/
def seedEnvironment : Environment := SortedMap.ofList [(1, intType, true)]

/-- A part assigns a symbol free: it is the assignment, or a child assigns it outside what is bound there. -/
inductive AssignsFree (symbol : Int) : CorePart → Prop
  | itself (name : ResolvedName) (value : CoreExpression) (h : name.resolvedSymbol = symbol) :
      AssignsFree symbol (.statement (.coreAssign name value))
  | inside {part child : CorePart} {bound : List Int} (hchild : (bound, child) ∈ part.children)
      (hfree : symbol ∉ bound) (hassigns : AssignsFree symbol child) : AssignsFree symbol part

end Tala.Core
