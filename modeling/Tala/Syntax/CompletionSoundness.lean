import Mathlib.Data.List.Forall2
import Tala.Syntax.Completion

/-!
# `Syntax.CompletionSoundness` — what the answers about completion promise

`Ends` says how code may end: any outcome of a condition that is not the literal `true`, and any subject values
of the types that the patterns of a `match` carry. A flag says whether a `break` may leave an initializer of a
capture. The search for transfers does not look into these initializers, so that the answers hold for the runs
in which none is left by a `break` (`Ends.not_falls`), and not for all of them.
-/

namespace Tala.Syntax

variable {name : Type}

/-! ## Subject values -/

/-- A value is one of the closed set of its type, where the type has one. -/
structure HasType (value : Literal) (valueType : Ty) : Prop where
  boolean : valueType = boolType → ∃ truth, value = .booleanLiteral truth
  enum : ∀ enumName underlying arguments,
    valueType = .namedType ["enum", enumName] (.typeTemplateArgument underlying :: arguments) →
      ∃ member, .valueTemplateArgument (.integerTemplateValue member) ∈ arguments ∧ value = .integerLiteral member

/-- The pattern is certain to accept the value. -/
def Accepts (pattern : MatchPattern name) (value : Literal) : Prop :=
  match pattern with
  | .matchWildcardPattern _ => True
  | .matchLiteralPattern literal _ => literal = value
  | .matchTypePattern _ _ => True
  | .matchNullPattern _ => False
  | .matchCasePattern _ _ => False

variable {pattern : MatchPattern name} {value : Literal} {domains : List (List Literal)}
  {arms : List (MatchArm name)}

theorem accepts_of_acceptsEveryValue (h : acceptsEveryValue pattern = true)
    (value : Literal) : Accepts pattern value := by
  cases pattern with
  | matchWildcardPattern | matchTypePattern => exact trivial
  | matchLiteralPattern | matchNullPattern | matchCasePattern => cases h

theorem accepts_of_acceptsLiteral (h : acceptsLiteral value pattern = true) : Accepts pattern value := by
  cases pattern with
  | matchLiteralPattern literal => exact of_decide_eq_true (p := literal = value) h
  | matchWildcardPattern | matchTypePattern => exact trivial
  | matchNullPattern | matchCasePattern => cases h

/-- The arm has no guard and its patterns are certain to accept the values. -/
def Takes (arm : MatchArm name) (values : List Literal) : Prop :=
  isUnguarded arm = true ∧ List.Forall₂ Accepts (matchArmPatterns arm) values

/-- Every arm has a pattern for each subject value, of a type that the value has. -/
def Fits (arms : List (MatchArm name)) (values : List Literal) : Prop :=
  ∀ arm ∈ arms, List.Forall₂ (fun pattern value => HasType value ( matchPatternAnnotation pattern))
    (matchArmPatterns arm) values

/-- **Closed types** have no other values. -/
theorem HasType.mem_closedValues {valueType : Ty} {values : List Literal}
    (htype : HasType value valueType) (hclosed : closedValues valueType = some values) : value ∈ values := by
  unfold closedValues at hclosed
  by_cases hbool : valueType = boolType
  · rw [if_pos hbool] at hclosed
    obtain ⟨truth, rfl⟩ := htype.boolean hbool
    cases hclosed
    cases truth <;> simp
  · rw [if_neg hbool, Option.map_eq_some_iff] at hclosed
    obtain ⟨members, hmembers, rfl⟩ := hclosed
    unfold enumMemberValues at hmembers
    split at hmembers
    · rename_i enumName underlying arguments
      cases hmembers
      obtain ⟨member, hmember, rfl⟩ := htype.enum enumName underlying arguments rfl
      refine List.mem_map.mpr ⟨member, List.mem_filterMap.mpr ⟨_, hmember, rfl⟩, rfl⟩
    · cases hmembers

theorem mem_combinations {values : List Literal}
    (h : List.Forall₂ (fun value domain => value ∈ domain) values domains) : values ∈ combinations domains := by
  induction h with
  | nil => exact List.mem_singleton_self _
  | @cons value domain values domains hvalue _ ih =>
      exact List.mem_flatMap.mpr ⟨value, hvalue, List.mem_map.mpr ⟨values, ih, rfl⟩⟩

theorem mapM_closedValues {values : List Literal} {subjectTypes : List Ty}
    (hvalues : List.Forall₂ HasType values subjectTypes) (hdomains : subjectTypes.mapM closedValues = some domains) :
    List.Forall₂ (fun value domain => value ∈ domain) values domains := by
  induction hvalues generalizing domains with
  | nil =>
      cases hdomains
      exact .nil
  | cons hvalue _ ih =>
      simp only [List.mapM_cons, Option.bind_eq_bind, Option.bind_eq_some_iff] at hdomains
      obtain ⟨domain, hdomain, rest, hrest, hcons⟩ := hdomains
      cases hcons
      exact .cons (hvalue.mem_closedValues hdomain) (ih hrest)

theorem takes_of_acceptsLiterals {arm : MatchArm name} {values : List Literal} (hguard : isUnguarded arm = true)
    (h : acceptsLiterals arm values = true) : Takes arm values := by
  unfold acceptsLiterals at h
  rw [Bool.and_eq_true, decide_eq_true_eq] at h
  obtain ⟨hlength, haccepts⟩ := h
  refine ⟨hguard, ?_⟩
  generalize matchArmPatterns arm = patterns at hlength haccepts
  induction patterns generalizing values with
  | nil =>
      cases values with
      | nil => exact .nil
      | cons => cases hlength
  | cons pattern patterns ih =>
      cases values with
      | nil => cases hlength
      | cons value values =>
          rw [List.zipWith_cons_cons, List.all_cons, Bool.and_eq_true] at haccepts
          exact .cons (accepts_of_acceptsLiteral haccepts.1) (ih (Nat.succ.inj hlength) haccepts.2)

/-- **Arms that always accept**: for all values of the subjects' types some arm takes them. -/
theorem exists_takes {subjectTypes : List Ty} {values : List Literal}
    (h : matchArmsAlwaysAccept subjectTypes arms = true)
    (harity : ∀ arm ∈ arms, (matchArmPatterns arm).length = subjectTypes.length)
    (hvalues : List.Forall₂ HasType values subjectTypes) : ∃ arm ∈ arms, Takes arm values := by
  unfold matchArmsAlwaysAccept at h
  rw [Bool.or_eq_true] at h
  rcases h with hcatch | hclosed
  · -- an arm whose patterns accept every value
    obtain ⟨arm, harm, hall⟩ := List.any_eq_true.mp hcatch
    obtain ⟨hmember, hguard⟩ := List.mem_filter.mp harm
    refine ⟨arm, hmember, hguard, ?_⟩
    have hlength := (harity arm hmember).trans hvalues.length_eq.symm
    rw [List.all_eq_true] at hall
    exact List.forall₂_iff_zip.mpr
      ⟨hlength, fun hpair => accepts_of_acceptsEveryValue (hall _ (List.of_mem_zip hpair).1) _⟩
  · -- every combination of the values of closed types is named
    split at hclosed
    · rename_i domains hdomains
      rw [Bool.and_eq_true] at hclosed
      have hcombination := mem_combinations (mapM_closedValues hvalues hdomains)
      obtain ⟨arm, harm, haccepts⟩ := List.any_eq_true.mp (List.all_eq_true.mp hclosed.2 _ hcombination)
      obtain ⟨hmember, hguard⟩ := List.mem_filter.mp harm
      exact ⟨arm, hmember, takes_of_acceptsLiterals hguard haccepts⟩
    · cases hclosed

/-! ## Ways to end -/

inductive Exit
  | falls | breaks | continues | returns
deriving DecidableEq, Repr

/-- A condition may have the value. The literal true has its own. -/
def mayBe (condition : Expression name) (outcome : Bool) : Prop := isConstantTrue condition = true → outcome = true

/-- A loop: its condition that may be absent, its updates and its body. -/
structure Loop (name : Type) where
  condition : Option (Expression name)
  updates : List (Statement name)
  body : List (Statement name)

/-- What a loop does after a part of it that ends so, when the part leaves the loop. -/
def Exit.ofLoop : Exit → Option Exit
  | .breaks => some .falls
  | .returns => some .returns
  | .falls => none
  | .continues => none

/-- What runs. A loop is about to test its condition, to run its body or to run its updates. -/
inductive Code (name : Type)
  | statement (single : Statement name)
  | block (list : List (Statement name))
  | expression (value : Expression name)
  | operands (list : List (Expression name))
  | optional (value : Option (Expression name))
  | captures (list : List (Capture name))
  | arms (values : List Literal) (list : List (MatchArm name))
  | test (loop : Loop name)
  | body (loop : Loop name)
  | updates (loop : Loop name)

/-- Some run of the code ends so. An expression that falls yields its value. -/
inductive Ends (escapes : Bool) : Code name → Exit → Prop
  -- statements
  | binding {span kind target annotated value exit} (h : Ends escapes (.expression value) exit) :
      Ends escapes (.statement (.bindingStatement span kind target annotated value)) exit
  | assignment {span target annotated value exit} (h : Ends escapes (.expression value) exit) :
      Ends escapes (.statement (.assignmentStatement span target annotated value)) exit
  | compoundAssignment {span operator target annotated value exit} (h : Ends escapes (.expression value) exit) :
      Ends escapes (.statement (.compoundAssignmentStatement span operator target annotated value)) exit
  | discard {span value exit} (h : Ends escapes (.expression value) exit) :
      Ends escapes (.statement (.discardStatement span value)) exit
  | expressionStatement {span value terminated exit} (h : Ends escapes (.expression value) exit) :
      Ends escapes (.statement (.expressionStatement span value terminated)) exit
  | increment {span target annotated} : Ends escapes (.statement (.incrementStatement span target annotated)) .falls
  | returns {span value} (h : Ends escapes (.optional value) .falls) :
      Ends escapes (.statement (.returnStatement span value)) .returns
  | returnLeft {span value exit} (h : Ends escapes (.optional value) exit) (hexit : exit ≠ .falls) :
      Ends escapes (.statement (.returnStatement span value)) exit
  | breaks {span value} (h : Ends escapes (.optional value) .falls) :
      Ends escapes (.statement (.breakStatement span value)) .breaks
  | breakLeft {span value exit} (h : Ends escapes (.optional value) exit) (hexit : exit ≠ .falls) :
      Ends escapes (.statement (.breakStatement span value)) exit
  | continues {span} : Ends escapes (.statement (.continueStatement span)) .continues
  | block {span list exit} (h : Ends escapes (.block list) exit) : Ends escapes (.statement (.blockStatement span list)) exit
  | ifLeft {span condition whenTrue whenFalse exit} (h : Ends escapes (.expression condition) exit)
      (hexit : exit ≠ .falls) : Ends escapes (.statement (.ifStatement span condition whenTrue whenFalse)) exit
  | ifTrue {span condition whenTrue whenFalse exit} (hcondition : Ends escapes (.expression condition) .falls)
      (h : Ends escapes (.block whenTrue) exit) :
      Ends escapes (.statement (.ifStatement span condition whenTrue whenFalse)) exit
  | ifFalse {span condition whenTrue whenFalse exit} (hcondition : Ends escapes (.expression condition) .falls)
      (hfalse : mayBe condition false) (h : Ends escapes (.block (whenFalse.getD [])) exit) :
      Ends escapes (.statement (.ifStatement span condition whenTrue whenFalse)) exit
  | guardLeft {span condition list exit} (h : Ends escapes (.expression condition) exit) (hexit : exit ≠ .falls) :
      Ends escapes (.statement (.guardStatement span condition list)) exit
  | guardTrue {span condition list} (hcondition : Ends escapes (.expression condition) .falls) :
      Ends escapes (.statement (.guardStatement span condition list)) .falls
  | guardFalse {span condition list exit} (hcondition : Ends escapes (.expression condition) .falls)
      (hfalse : mayBe condition false) (h : Ends escapes (.block list) exit) :
      Ends escapes (.statement (.guardStatement span condition list)) exit
  | whileLoop {span condition body exit} (h : Ends escapes (.test ⟨some condition, [], body⟩) exit) :
      Ends escapes (.statement (.whileStatement span condition body)) exit
  | doWhileLoop {span condition body exit} (h : Ends escapes (.body ⟨some condition, [], body⟩) exit) :
      Ends escapes (.statement (.doWhileStatement span body condition)) exit
  | forInitializer {span initializer condition updates body exit} (h : Ends escapes (.statement initializer) exit)
      (hexit : exit ≠ .falls) :
      Ends escapes (.statement (.forStatement span (some initializer) condition updates body)) exit
  | forLoop {span initializer condition updates body exit}
      (hinitializer : ∀ statement, initializer = some statement → Ends escapes (.statement statement) .falls)
      (h : Ends escapes (.test ⟨condition, updates, body⟩) exit) :
      Ends escapes (.statement (.forStatement span initializer condition updates body)) exit
  | forEachSource {span kind target annotated source body exit} (h : Ends escapes (.expression source) exit)
      (hexit : exit ≠ .falls) :
      Ends escapes (.statement (.forEachStatement span kind target annotated source body)) exit
  | forEachDone {span kind target annotated source body} (h : Ends escapes (.expression source) .falls) :
      Ends escapes (.statement (.forEachStatement span kind target annotated source body)) .falls
  | forEachBody {span kind target annotated source body exit left} (hsource : Ends escapes (.expression source) .falls)
      (h : Ends escapes (.block body) exit) (hleft : exit.ofLoop = some left) :
      Ends escapes (.statement (.forEachStatement span kind target annotated source body)) left
  -- the rounds of a loop
  | testAbsent {updates body exit} (h : Ends escapes (.body ⟨none, updates, body⟩) exit) :
      Ends escapes (.test ⟨none, updates, body⟩) exit
  | testTrue {condition updates body exit} (hcondition : Ends escapes (.expression condition) .falls)
      (h : Ends escapes (.body ⟨some condition, updates, body⟩) exit) :
      Ends escapes (.test ⟨some condition, updates, body⟩) exit
  | testFalse {condition updates body} (hcondition : Ends escapes (.expression condition) .falls)
      (hfalse : mayBe condition false) : Ends escapes (.test ⟨some condition, updates, body⟩) .falls
  | testLeft {condition updates body exit left} (h : Ends escapes (.expression condition) exit)
      (hleft : exit.ofLoop = some left) : Ends escapes (.test ⟨some condition, updates, body⟩) left
  | testAgain {condition updates body exit} (hcondition : Ends escapes (.expression condition) .continues)
      (h : Ends escapes (.test ⟨some condition, updates, body⟩) exit) :
      Ends escapes (.test ⟨some condition, updates, body⟩) exit
  | bodyLeft {loop exit left} (h : Ends escapes (.block loop.body) exit) (hleft : exit.ofLoop = some left) :
      Ends escapes (.body loop) left
  | bodyDone {loop between exit} (hbody : Ends escapes (.block loop.body) between) (hround : between.ofLoop = none)
      (h : Ends escapes (.updates loop) exit) : Ends escapes (.body loop) exit
  | updatesLeft {loop exit left} (h : Ends escapes (.block loop.updates) exit) (hleft : exit.ofLoop = some left) :
      Ends escapes (.updates loop) left
  | updatesDone {loop between exit} (hupdates : Ends escapes (.block loop.updates) between)
      (hround : between.ofLoop = none) (h : Ends escapes (.test loop) exit) : Ends escapes (.updates loop) exit
  -- sequences
  | blockNil : Ends escapes (.block []) .falls
  | blockNext {statement rest exit} (hstatement : Ends escapes (.statement statement) .falls)
      (h : Ends escapes (.block rest) exit) : Ends escapes (.block (statement :: rest)) exit
  | blockLeft {statement rest exit} (h : Ends escapes (.statement statement) exit) (hexit : exit ≠ .falls) :
      Ends escapes (.block (statement :: rest)) exit
  | operandsNil : Ends escapes (.operands []) .falls
  | operandsNext {operand rest exit} (hoperand : Ends escapes (.expression operand) .falls)
      (h : Ends escapes (.operands rest) exit) : Ends escapes (.operands (operand :: rest)) exit
  | operandsLeft {operand rest exit} (h : Ends escapes (.expression operand) exit) (hexit : exit ≠ .falls) :
      Ends escapes (.operands (operand :: rest)) exit
  | optionalNone : Ends escapes (.optional none) .falls
  | optionalSome {value exit} (h : Ends escapes (.expression value) exit) : Ends escapes (.optional (some value)) exit
  -- expressions
  | nameValue {span target annotated} : Ends escapes (.expression (.nameExpression span target annotated)) .falls
  | literal {span literal annotated} : Ends escapes (.expression (.literalExpression span literal annotated)) .falls
  | incrementValue {span isPrefixForm target annotated} :
      Ends escapes (.expression (.incrementExpression span isPrefixForm target annotated)) .falls
  | memberAccess {span receiver member annotated exit} (h : Ends escapes (.expression receiver) exit) :
      Ends escapes (.expression (.memberAccessExpression span receiver member annotated)) exit
  | methodReference {span receiver member annotated exit} (h : Ends escapes (.expression receiver) exit) :
      Ends escapes (.expression (.methodReferenceExpression span receiver member annotated)) exit
  | call {span callee arguments annotated exit} (h : Ends escapes (.operands (callee :: arguments)) exit) :
      Ends escapes (.expression (.callExpression span callee arguments annotated)) exit
  | unary {span operator operand annotated exit} (h : Ends escapes (.expression operand) exit) :
      Ends escapes (.expression (.unaryExpression span operator operand annotated)) exit
  | binary {span operator left right annotated exit} (h : Ends escapes (.operands [left, right]) exit) :
      Ends escapes (.expression (.binaryExpression span operator left right annotated)) exit
  | shortCircuit {span operator left right annotated exit} (hoperator : isShortCircuit operator = true)
      (h : Ends escapes (.expression left) exit) :
      Ends escapes (.expression (.binaryExpression span operator left right annotated)) exit
  | isPattern {span subject pattern annotated exit} (h : Ends escapes (.expression subject) exit) :
      Ends escapes (.expression (.isPatternExpression span subject pattern annotated)) exit
  | conditionalLeft {span condition first second annotated exit} (h : Ends escapes (.expression condition) exit)
      (hexit : exit ≠ .falls) :
      Ends escapes (.expression (.conditionalExpression span condition first second annotated)) exit
  | conditionalTrue {span condition first second annotated exit} (hcondition : Ends escapes (.expression condition) .falls)
      (h : Ends escapes (.expression first) exit) :
      Ends escapes (.expression (.conditionalExpression span condition first second annotated)) exit
  | conditionalFalse {span condition first second annotated exit}
      (hcondition : Ends escapes (.expression condition) .falls) (hfalse : mayBe condition false)
      (h : Ends escapes (.expression second) exit) :
      Ends escapes (.expression (.conditionalExpression span condition first second annotated)) exit
  | coalesceLeft {span left fallback annotated exit} (h : Ends escapes (.expression left) exit) :
      Ends escapes (.expression (.coalesceExpression span left fallback annotated)) exit
  | coalesceFallback {span left fallback annotated exit} (hleft : Ends escapes (.expression left) .falls)
      (h : Ends escapes (.expression fallback) exit) :
      Ends escapes (.expression (.coalesceExpression span left fallback annotated)) exit
  | assignmentValue {span operator target value annotated exit} (h : Ends escapes (.expression value) exit) :
      Ends escapes (.expression (.assignmentExpression span operator target value annotated)) exit
  -- no transfer in a loop used as an expression has a loop around it to leave
  | loopValue {span loop annotated exit} (h : Ends escapes (.statement loop) exit)
      (hexit : exit = .falls ∨ exit = .returns) : Ends escapes (.expression (.loopExpression span loop annotated)) exit
  | blockValue {span list annotated exit} (h : Ends escapes (.block list) exit) :
      Ends escapes (.expression (.blockExpression span list annotated)) exit
  | matchLeft {span subjects list annotated exit} (h : Ends escapes (.operands subjects) exit) (hexit : exit ≠ .falls) :
      Ends escapes (.expression (.matchExpression span subjects list annotated)) exit
  | matchArms {span subjects list annotated values exit} (hsubjects : Ends escapes (.operands subjects) .falls)
      (hvalues : Fits list values) (h : Ends escapes (.arms values list) exit) :
      Ends escapes (.expression (.matchExpression span subjects list annotated)) exit
  | callable {span explicit list parameters body annotated exit} (h : Ends escapes (.captures list) exit) :
      Ends escapes (.expression (.callableExpression span explicit list parameters body annotated)) exit
  -- arms, tried in their order
  | armsNone {values} : Ends escapes (.arms values []) .falls
  | armTaken {values patterns guard body rest exit} (hguard : Ends escapes (.optional guard) .falls)
      (h : Ends escapes (.expression body) exit) :
      Ends escapes (.arms values (.matchArm patterns guard body :: rest)) exit
  | armGuardLeft {values patterns guard body rest exit} (h : Ends escapes (.optional guard) exit)
      (hexit : exit ≠ .falls) : Ends escapes (.arms values (.matchArm patterns guard body :: rest)) exit
  | armPassed {values arm rest exit} (hrejects : ¬ Takes arm values) (h : Ends escapes (.arms values rest) exit) :
      Ends escapes (.arms values (arm :: rest)) exit
  -- initializers of captures
  | capturesNil : Ends escapes (.captures []) .falls
  | capturesNext {span mode target annotated initializer rest exit}
      (hinitializer : Ends escapes (.optional initializer) .falls) (h : Ends escapes (.captures rest) exit) :
      Ends escapes (.captures (.capture span mode target annotated initializer :: rest)) exit
  | capturesLeft {span mode target annotated initializer rest exit} (h : Ends escapes (.optional initializer) exit)
      (hexit : exit ≠ .falls) (hbreak : exit = .breaks → escapes = true) :
      Ends escapes (.captures (.capture span mode target annotated initializer :: rest)) exit

/-! ## What the answers promise -/

def Loop.transfers (loop : Loop name) : List (Statement name) :=
  optionalTransfers loop.condition ++ blockTransfers loop.body ++ blockTransfers loop.updates

/-- The transfers that the search finds in the code. A loop keeps its own. -/
def Code.transfers : Code name → List (Statement name)
  | .statement single => statementTransfers single
  | .block list => blockTransfers list
  | .expression value => expressionTransfers value
  | .operands list => operandTransfers list
  | .optional value => optionalTransfers value
  | .captures _ => []
  | .arms _ list => armTransfers list
  | .test _ => []
  | .body _ => []
  | .updates _ => []

theorem leftByBreak_append (first second : List (Statement name)) :
    leftByBreak (first ++ second) = (leftByBreak first || leftByBreak second) := List.any_append

variable {exit : Exit}

/-- A part of a loop that leaves it does not leave it by a `break`. -/
theorem Exit.ofLoop_ne_breaks {left : Exit} (hleft : exit.ofLoop = some left) : left ≠ .breaks := by
  cases exit <;> cases hleft <;> decide

variable {code : Code name}

/-- **Only a `break` that the search finds leaves the code by a `break`**, where no capture lets one out. -/
theorem Ends.searchFinds (h : Ends false code exit) (hexit : exit = .breaks) :
    leftByBreak code.transfers = true := by
  induction h with
  | increment | returns | continues | guardTrue | forEachDone | testFalse | blockNil | operandsNil | optionalNone
  | nameValue | literal | incrementValue | armsNone | capturesNil => cases hexit
  | testLeft _ hleft _ | bodyLeft _ hleft _ | updatesLeft _ hleft _ | forEachBody _ _ hleft _ _ =>
      exact absurd hexit (Exit.ofLoop_ne_breaks hleft)
  | testAbsent _ ih | testTrue _ _ _ ih | testAgain _ _ _ ih | bodyDone _ _ _ _ ih | updatesDone _ _ _ _ ih
  | whileLoop _ ih | doWhileLoop _ ih | forLoop _ _ _ ih | callable _ ih =>
      exact absurd (ih hexit) Bool.false_ne_true
  | loopValue _ hends _ => rcases hends with rfl | rfl <;> cases hexit
  | capturesLeft _ _ hbreak _ => exact absurd (hbreak hexit) Bool.false_ne_true
  | capturesNext _ _ _ ih => exact ih hexit
  | breaks | breakLeft => rfl
  | binding _ ih | assignment _ ih | compoundAssignment _ ih | discard _ ih | expressionStatement _ ih
  | returnLeft _ _ ih | block _ ih | forInitializer _ _ ih | forEachSource _ _ ih | optionalSome _ ih
  | memberAccess _ ih | methodReference _ ih | unary _ ih | isPattern _ ih | assignmentValue _ ih
  | blockValue _ ih | call _ ih => exact ih hexit
  -- one of the parts whose transfers are put together
  | ifLeft _ _ ih | ifTrue _ _ _ ih | guardLeft _ _ ih | guardFalse _ _ _ _ ih | blockNext _ _ _ ih
  | blockLeft _ _ ih =>
      have hfound := ih hexit
      simp only [Code.transfers] at hfound
      simp [Code.transfers, statementTransfers, blockTransfers, leftByBreak_append, hfound]
  | @ifFalse _ _ _ whenFalse _ _ _ _ _ ih =>
      have hfound := ih hexit
      cases whenFalse with
      | none => exact absurd hfound Bool.false_ne_true
      | some list =>
          simp only [Code.transfers, Option.getD_some] at hfound
          simp [Code.transfers, statementTransfers, optionalBlockTransfers, leftByBreak_append, hfound]
  | binary _ ih =>
      have hfound := ih hexit
      simp only [Code.transfers, operandTransfers, List.append_nil] at hfound
      exact hfound
  | operandsNext _ _ _ ih | operandsLeft _ _ ih | shortCircuit _ _ ih | conditionalLeft _ _ ih
  | conditionalTrue _ _ _ ih | conditionalFalse _ _ _ _ ih | coalesceLeft _ ih | coalesceFallback _ _ _ ih
  | matchLeft _ _ ih | matchArms _ _ _ _ ih | armTaken _ _ _ ih | armGuardLeft _ _ ih =>
      have hfound := ih hexit
      simp only [Code.transfers] at hfound
      simp [Code.transfers, expressionTransfers, operandTransfers, armTransfers, leftByBreak_append, hfound]
  | @armPassed _ arm _ _ _ _ ih =>
      have hfound := ih hexit
      cases arm
      simp only [Code.transfers] at hfound
      simp [Code.transfers, armTransfers, leftByBreak_append, hfound]

/-- What the answers say about code: its end is not reached. -/
def Code.Stops : Code name → Prop
  | .statement single => statementCannotComplete single = true
  | .block list => blockCannotComplete list = true
  | .expression value => doesNotComplete value = true
  | .operands list => anyDoesNotComplete list = true
  | .optional _ => False
  | .captures _ => False
  | .arms values list => (∃ arm ∈ list, Takes arm values) ∧ bodiesDoNotComplete list = true
  | .test loop => leftByBreak loop.transfers = false ∧ neverFalse loop.condition = true
  | .body loop => leftByBreak loop.transfers = false ∧ neverFalse loop.condition = true
  | .updates loop => leftByBreak loop.transfers = false ∧ neverFalse loop.condition = true

/-- Values that fit arms have the types that the first arm carries. -/
theorem Fits.subjectTypes {values : List Literal} (h : Fits arms values)
    (hne : arms ≠ []) : List.Forall₂ HasType values (subjectTypesOf arms) ∧
      ∀ arm ∈ arms, (matchArmPatterns arm).length = (subjectTypesOf arms).length := by
  cases arms with
  | nil => exact absurd rfl hne
  | cons first rest =>
      have hfirst := h first List.mem_cons_self
      have htypes : List.Forall₂ HasType values (subjectTypesOf (first :: rest)) :=
        List.forall₂_map_right_iff.mpr (List.Forall₂.flip hfirst)
      exact ⟨htypes, fun arm harm => (h arm harm).length_eq.trans htypes.length_eq⟩

/-- The part of a loop that leaves it holds a `break`, unless it returns. -/
theorem Exit.ofLoop_falls (hleft : exit.ofLoop = some .falls) : exit = .breaks := by
  cases exit with
  | breaks => rfl
  | falls | continues => cases hleft
  | returns => cases hleft

/-- The answer about a loop with updates that may be none. -/
theorem loop_stops {condition : Option (Expression name)} {updates body : List (Statement name)}
    (h : (!leftByBreak (optionalTransfers condition ++ blockTransfers body ++ blockTransfers updates) &&
      neverFalse condition) = true) :
    leftByBreak (Loop.transfers ⟨condition, updates, body⟩) = false ∧ neverFalse condition = true := by
  rw [Bool.and_eq_true, Bool.not_eq_true'] at h
  exact h

/-- **The end of code that stops is not reached**, where no capture lets a `break` out. -/
theorem Ends.not_falls (h : Ends false code exit) (hexit : exit = .falls) : ¬ code.Stops := by
  induction h with
  | increment | forEachDone | forEachBody | nameValue | literal | incrementValue | blockNil | operandsNil
  | callable => exact Bool.false_ne_true
  | optionalNone | optionalSome | capturesNil | capturesNext => exact id
  | returns | breaks | continues => cases hexit
  | returnLeft _ hne _ | breakLeft _ hne _ | ifLeft _ hne _ | guardLeft _ hne _ | forInitializer _ hne _
  | forEachSource _ hne _ | blockLeft _ hne _ | operandsLeft _ hne _ | conditionalLeft _ hne _ | matchLeft _ hne _
  | armGuardLeft _ hne _ | capturesLeft _ hne _ _ => exact absurd hexit hne
  | binding _ ih | assignment _ ih | compoundAssignment _ ih | discard _ ih | expressionStatement _ ih
  | block _ ih | memberAccess _ ih | methodReference _ ih | unary _ ih | isPattern _ ih | coalesceLeft _ ih
  | assignmentValue _ ih | loopValue _ _ ih | blockValue _ ih | call _ ih => exact ih hexit
  | ifTrue _ _ ihcondition ih =>
      intro hstops
      rcases (Bool.or_eq_true _ _).mp hstops with hcondition | hbranches
      · exact ihcondition rfl hcondition
      · exact ih hexit ((Bool.and_eq_true _ _).mp hbranches).1
  | @ifFalse _ _ _ whenFalse _ _ _ _ ihcondition ih =>
      intro hstops
      rcases (Bool.or_eq_true _ _).mp hstops with hcondition | hbranches
      · exact ihcondition rfl hcondition
      · cases whenFalse with
        | none => exact absurd ((Bool.and_eq_true _ _).mp hbranches).2 Bool.false_ne_true
        | some list => exact ih hexit ((Bool.and_eq_true _ _).mp hbranches).2
  | guardTrue _ ih | guardFalse _ _ _ ih _ => exact ih rfl
  | whileLoop _ ih | doWhileLoop _ ih =>
      intro hstops
      refine ih hexit (loop_stops ?_)
      rw [show blockTransfers ([] : List (Statement name)) = [] from rfl, List.append_nil]
      exact hstops
  | @forLoop _ initializer _ _ _ _ _ _ ihinitializer ih =>
      intro hstops
      rcases (Bool.or_eq_true _ _).mp hstops with hfirst | hloop
      · cases initializer with
        | none => exact absurd hfirst Bool.false_ne_true
        | some statement => exact ihinitializer statement rfl rfl hfirst
      · exact ih hexit (loop_stops hloop)
  -- the rounds of a loop that holds no `break`
  | testAbsent _ ih | testTrue _ _ _ ih | testAgain _ _ _ ih | bodyDone _ _ _ _ ih | updatesDone _ _ _ _ ih =>
      exact ih hexit
  | testFalse _ hfalse ih =>
      rintro ⟨_, hnever⟩
      rcases (Bool.or_eq_true _ _).mp hnever with hcondition | htrue
      · exact ih rfl hcondition
      · exact absurd (hfalse htrue) Bool.false_ne_true
  | testLeft hcondition hleft _ =>
      subst hexit
      rintro ⟨hnone, _⟩
      have hfound := hcondition.searchFinds (Exit.ofLoop_falls hleft)
      simp only [Code.transfers] at hfound
      simp [Loop.transfers, optionalTransfers, leftByBreak_append, hfound] at hnone
  | bodyLeft hbody hleft _ =>
      subst hexit
      rintro ⟨hnone, _⟩
      have hfound := hbody.searchFinds (Exit.ofLoop_falls hleft)
      simp only [Code.transfers] at hfound
      simp [Loop.transfers, leftByBreak_append, hfound] at hnone
  | updatesLeft hupdates hleft _ =>
      subst hexit
      rintro ⟨hnone, _⟩
      have hfound := hupdates.searchFinds (Exit.ofLoop_falls hleft)
      simp only [Code.transfers] at hfound
      simp [Loop.transfers, leftByBreak_append, hfound] at hnone
  | blockNext _ _ ihfirst ih | operandsNext _ _ ihfirst ih =>
      intro hstops
      rcases (Bool.or_eq_true _ _).mp hstops with hfirst | hrest
      · exact ihfirst rfl hfirst
      · exact ih hexit hrest
  | @binary _ operator left right _ _ _ ih =>
      intro hstops
      refine ih hexit ?_
      show (doesNotComplete left || (doesNotComplete right || false)) = true
      have hoperands : (if isShortCircuit operator then doesNotComplete left
          else doesNotComplete left || doesNotComplete right) = true := hstops
      split at hoperands <;> simp_all
  | @shortCircuit _ operator left right _ _ hoperator _ ih =>
      intro hstops
      refine ih hexit ?_
      have hoperands : (if isShortCircuit operator then doesNotComplete left
          else doesNotComplete left || doesNotComplete right) = true := hstops
      rwa [if_pos hoperator] at hoperands
  | conditionalTrue _ _ ihcondition ih =>
      intro hstops
      rcases (Bool.or_eq_true _ _).mp hstops with hcondition | hbranches
      · exact ihcondition rfl hcondition
      · exact ih hexit ((Bool.and_eq_true _ _).mp hbranches).1
  | conditionalFalse _ _ _ ihcondition ih =>
      intro hstops
      rcases (Bool.or_eq_true _ _).mp hstops with hcondition | hbranches
      · exact ihcondition rfl hcondition
      · exact ih hexit ((Bool.and_eq_true _ _).mp hbranches).2
  | coalesceFallback _ _ ihleft _ => exact ihleft rfl
  | matchArms _ hvalues _ ihsubjects ih =>
      intro hstops
      rcases (Bool.or_eq_true _ _).mp hstops with hsubjects | harms
      · exact ihsubjects rfl hsubjects
      · obtain ⟨haccept, hbodies⟩ := (Bool.and_eq_true _ _).mp harms
        obtain ⟨hne, haccept⟩ := (Bool.and_eq_true _ _).mp haccept
        obtain ⟨htypes, harity⟩ := hvalues.subjectTypes (by simpa using hne)
        exact ih hexit ⟨exists_takes haccept harity htypes, hbodies⟩
  | armsNone =>
      rintro ⟨⟨arm, harm, _⟩, _⟩
      cases harm
  | armTaken _ _ _ ih =>
      rintro ⟨_, hbodies⟩
      exact ih hexit ((Bool.and_eq_true _ _).mp hbodies).1
  | @armPassed _ first _ _ hrejects _ ih =>
      rintro ⟨⟨arm, harm, htakes⟩, hbodies⟩
      cases first
      refine ih hexit ⟨?_, ((Bool.and_eq_true _ _).mp hbodies).2⟩
      rcases List.mem_cons.mp harm with rfl | hlater
      · exact absurd htakes hrejects
      · exact ⟨arm, hlater, htakes⟩

/-- **Completion analysis is sound** in every run in which no `break` leaves an initializer of a capture, and arms
that always accept take all values of the subjects' types. -/
theorem completion_sound :
    (∀ (statement : Statement name), statementCannotComplete statement = true →
      ¬ Ends false (.statement statement) .falls) ∧
    (∀ (expression : Expression name), doesNotComplete expression = true →
      ¬ Ends false (.expression expression) .falls) ∧
    (∀ (subjectTypes : List Ty) (arms : List (MatchArm name)) (values : List Literal),
      matchArmsAlwaysAccept subjectTypes arms = true →
      (∀ arm ∈ arms, (matchArmPatterns arm).length = subjectTypes.length) →
      List.Forall₂ HasType values subjectTypes → ∃ arm ∈ arms, Takes arm values) :=
  ⟨fun _ hstops h => h.not_falls rfl hstops, fun _ hstops h => h.not_falls rfl hstops,
    fun _ _ _ haccept harity hvalues => exists_takes haccept harity hvalues⟩

/-- A loop without an end whose body creates a callable: its capture is `if (leave) { break; } else { 1 }`. -/
def leavingCapture : Statement String :=
  .whileStatement emptySpan (.literalExpression emptySpan (.booleanLiteral true) boolType)
    [.bindingStatement emptySpan .immutableBinding "created" (.functionType [] intType)
      (.callableExpression emptySpan true
        [.capture emptySpan .strongCapture "kept" intType (some
          (.conditionalExpression emptySpan (.nameExpression emptySpan "leave" boolType)
            (.blockExpression emptySpan [.breakStatement emptySpan none] boolType)
            (.blockExpression emptySpan [.expressionStatement emptySpan (.literalExpression emptySpan (.integerLiteral 1) intType) false] intType)
            intType))]
        [] (.callableExpressionBody (.nameExpression emptySpan "kept" intType)) (.functionType [] intType))]

/-- **A `break` in a capture leaves the loop around the callable**, and the search does not find it. -/
theorem leavingCapture_falls : statementCannotComplete leavingCapture = true ∧
    Ends true (.statement leavingCapture) .falls := by
  refine ⟨by decide, ?_⟩
  have hbreak : Ends true (.block [(.breakStatement emptySpan none : Statement String)]) .breaks :=
    .blockLeft (.breaks .optionalNone) (by decide)
  have hcapture : Ends true (.expression (.conditionalExpression emptySpan (.nameExpression emptySpan "leave" boolType)
      (.blockExpression emptySpan [.breakStatement emptySpan none] boolType)
      (.blockExpression emptySpan [.expressionStatement emptySpan (.literalExpression emptySpan (.integerLiteral 1) intType) false] intType)
      intType)) .breaks := .conditionalTrue .nameValue (.blockValue hbreak)
  refine .whileLoop (.testTrue .literal ?_)
  refine @Ends.bodyLeft _ _ _ .breaks _ (.blockLeft (.binding (.callable ?_)) (by decide)) rfl
  exact .capturesLeft (.optionalSome hcapture) (by decide) (fun _ => rfl)

/-- Without such a `break` no run reaches the end of the same loop, and `bool` subjects have two values. -/
theorem completion_sound_leavingCapture : ¬ Ends false (.statement leavingCapture) .falls ∧
    ∃ arm ∈ [MatchArm.matchArm [.matchLiteralPattern (.booleanLiteral true) boolType] none
        (.nameExpression emptySpan "first" intType),
      .matchArm [.matchLiteralPattern (.booleanLiteral false) boolType] none (.nameExpression emptySpan "second" intType)],
      Takes arm [.booleanLiteral false] := by
  have hvalue : HasType (.booleanLiteral false) boolType := by
    refine ⟨fun _ => ⟨false, rfl⟩, ?_⟩
    intro enumName underlying arguments htype
    simp [boolType, namedType] at htype
  refine ⟨completion_sound.1 leavingCapture (by decide), ?_⟩
  exact completion_sound.2.2 [boolType] _ _ (by decide) (by decide) (.cons hvalue .nil)

end Tala.Syntax
