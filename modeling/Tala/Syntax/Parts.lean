import Mathlib.Data.List.Perm.Basic
import Mathlib.Logic.Relation
import Tala.Syntax.Declaration

/-!
# `Syntax.Parts` — what code is made of

Statements, expressions, arms and captures have parts of their own. `CodePart.children` lists the direct ones in
their order, and `CodePart.Contains` is containment at any depth. A traversal that collects something from a part
and from each of its children collects it from every part contained (`mem_traversal_iff`).
-/

namespace Tala.Syntax

variable {name : Type}

inductive CodePart (name : Type)
  | statement (single : Statement name)
  | expression (value : Expression name)
  | arm (alternative : MatchArm name)
  | capture (captured : Capture name)

def callableBodyParts : CallableBody name → List (CodePart name)
  | .callableExpressionBody expression => [.expression expression]
  | .callableBlockBody block => block.map .statement

/-- The parts directly inside a part. -/
def CodePart.children : CodePart name → List (CodePart name)
  | .statement (.bindingStatement _ _ _ _ value) => [.expression value]
  | .statement (.assignmentStatement _ _ _ value) => [.expression value]
  | .statement (.returnStatement _ value) => value.toList.map .expression
  | .statement (.ifStatement _ condition whenTrue whenFalse) =>
      .expression condition :: (whenTrue.map .statement ++ (whenFalse.getD []).map .statement)
  | .statement (.whileStatement _ condition body) => .expression condition :: body.map .statement
  | .statement (.doWhileStatement _ body condition) => body.map .statement ++ [.expression condition]
  | .statement (.forStatement _ initializer condition updates body) =>
      initializer.toList.map .statement ++ (condition.toList.map .expression ++
        (updates.map .statement ++ body.map .statement))
  | .statement (.forEachStatement _ _ _ _ source body) => .expression source :: body.map .statement
  | .statement (.incrementStatement _ _ _) => []
  | .statement (.compoundAssignmentStatement _ _ _ _ value) => [.expression value]
  | .statement (.discardStatement _ value) => [.expression value]
  | .statement (.breakStatement _ value) => value.toList.map .expression
  | .statement (.continueStatement _) => []
  | .statement (.guardStatement _ condition block) => .expression condition :: block.map .statement
  | .statement (.blockStatement _ block) => block.map .statement
  | .statement (.expressionStatement _ value _) => [.expression value]
  | .expression (.nameExpression _ _ _) => []
  | .expression (.literalExpression _ _ _) => []
  | .expression (.memberAccessExpression _ receiver _ _) => [.expression receiver]
  | .expression (.methodReferenceExpression _ receiver _ _) => [.expression receiver]
  | .expression (.callExpression _ callee arguments _) => .expression callee :: arguments.map .expression
  | .expression (.unaryExpression _ _ operand _) => [.expression operand]
  | .expression (.binaryExpression _ _ left right _) => [.expression left, .expression right]
  | .expression (.isPatternExpression _ subject _ _) => [.expression subject]
  | .expression (.conditionalExpression _ condition first second _) =>
      [.expression condition, .expression first, .expression second]
  | .expression (.coalesceExpression _ left fallback _) => [.expression left, .expression fallback]
  | .expression (.assignmentExpression _ _ _ value _) => [.expression value]
  | .expression (.incrementExpression _ _ _ _) => []
  | .expression (.loopExpression _ loop _) => [.statement loop]
  | .expression (.blockExpression _ block _) => block.map .statement
  | .expression (.matchExpression _ subjects arms _) => subjects.map .expression ++ arms.map .arm
  | .expression (.callableExpression _ _ captures _ body _) => captures.map .capture ++ callableBodyParts body
  | .arm (.matchArm _ guard body) => guard.toList.map .expression ++ [.expression body]
  | .capture (.capture _ _ _ _ initializer) => initializer.toList.map .expression

/-- Containment at any depth; a part contains itself. -/
def CodePart.Contains : CodePart name → CodePart name → Prop :=
  Relation.ReflTransGen fun outer inner => inner ∈ outer.children

/-! ## Children are smaller -/

section Sizes

variable {part : CodePart name}

theorem sizeOf_mem_statements {block : List (Statement name)} (h : part ∈ block.map .statement) :
    sizeOf part ≤ sizeOf block := by
  obtain ⟨single, hmem, rfl⟩ := List.mem_map.mp h
  have hless := List.sizeOf_lt_of_mem hmem
  simp only [CodePart.statement.sizeOf_spec]
  omega

theorem sizeOf_mem_expressions {operands : List (Expression name)} (h : part ∈ operands.map .expression) :
    sizeOf part ≤ sizeOf operands := by
  obtain ⟨value, hmem, rfl⟩ := List.mem_map.mp h
  have hless := List.sizeOf_lt_of_mem hmem
  simp only [CodePart.expression.sizeOf_spec]
  omega

theorem sizeOf_mem_arms {arms : List (MatchArm name)} (h : part ∈ arms.map .arm) : sizeOf part ≤ sizeOf arms := by
  obtain ⟨alternative, hmem, rfl⟩ := List.mem_map.mp h
  have hless := List.sizeOf_lt_of_mem hmem
  simp only [CodePart.arm.sizeOf_spec]
  omega

theorem sizeOf_mem_captures {captures : List (Capture name)} (h : part ∈ captures.map .capture) :
    sizeOf part ≤ sizeOf captures := by
  obtain ⟨captured, hmem, rfl⟩ := List.mem_map.mp h
  have hless := List.sizeOf_lt_of_mem hmem
  simp only [CodePart.capture.sizeOf_spec]
  omega

theorem sizeOf_mem_optional {value : Option (Expression name)} (h : part ∈ value.toList.map .expression) :
    sizeOf part ≤ sizeOf value := by
  cases value with
  | none => cases h
  | some value =>
      obtain rfl := List.mem_singleton.mp h
      simp

theorem sizeOf_mem_initializer {initializer : Option (Statement name)}
    (h : part ∈ initializer.toList.map .statement) : sizeOf part ≤ sizeOf initializer := by
  cases initializer with
  | none => cases h
  | some single =>
      obtain rfl := List.mem_singleton.mp h
      simp

theorem sizeOf_mem_else {block : Option (List (Statement name))} (h : part ∈ (block.getD []).map .statement) :
    sizeOf part ≤ sizeOf block := by
  cases block with
  | none => cases h
  | some block =>
      have hless : sizeOf part ≤ sizeOf block := sizeOf_mem_statements h
      simp only [Option.some.sizeOf_spec]
      omega

theorem sizeOf_mem_body {body : CallableBody name} (h : part ∈ callableBodyParts body) :
    sizeOf part ≤ sizeOf body := by
  cases body with
  | callableExpressionBody expression =>
      obtain rfl := List.mem_singleton.mp h
      simp
  | callableBlockBody block =>
      have hless : sizeOf part ≤ sizeOf block := sizeOf_mem_statements h
      simp only [CallableBody.callableBlockBody.sizeOf_spec]
      omega

theorem sizeOf_children {outer : CodePart name} (h : part ∈ outer.children) : sizeOf part < sizeOf outer := by
  have hexpression : ∀ value : Expression name, sizeOf (CodePart.expression value) = 1 + sizeOf value := by simp
  have hstatement : ∀ single : Statement name, sizeOf (CodePart.statement single) = 1 + sizeOf single := by simp
  cases outer with
  | statement single =>
      cases single <;>
        simp only [CodePart.children, List.mem_cons, List.mem_append, List.not_mem_nil, or_false] at h <;> simp <;>
        grind [→ sizeOf_mem_statements, → sizeOf_mem_optional, → sizeOf_mem_initializer, → sizeOf_mem_else]
  | expression value =>
      cases value <;>
        simp only [CodePart.children, List.mem_cons, List.mem_append, List.not_mem_nil, or_false] at h <;> simp <;>
        grind [→ sizeOf_mem_statements, → sizeOf_mem_expressions, → sizeOf_mem_arms, → sizeOf_mem_captures,
          → sizeOf_mem_body]
  | arm alternative =>
      cases alternative
      simp only [CodePart.children, List.mem_append, List.mem_singleton] at h
      simp
      grind [→ sizeOf_mem_optional]
  | capture captured =>
      cases captured
      have hless := sizeOf_mem_optional h
      simp
      omega

end Sizes

/-! ## Traversals -/

section Traversals

variable {α : Type} {own collect : CodePart name → List α}

/-- A traversal that adds what it finds in the children to what a part has of its own finds what any contained
part has of its own. -/
theorem mem_traversal_iff
    (step : ∀ part x, x ∈ collect part ↔ x ∈ own part ∨ ∃ child ∈ part.children, x ∈ collect child)
    {outer : CodePart name} {x : α} : x ∈ collect outer ↔ ∃ inner, outer.Contains inner ∧ x ∈ own inner := by
  constructor
  · intro h
    rcases (step outer x).mp h with hown | ⟨child, hchild, hcollect⟩
    · exact ⟨outer, .refl, hown⟩
    · have hless := sizeOf_children hchild
      obtain ⟨inner, hcontains, hinner⟩ := (mem_traversal_iff step).mp hcollect
      exact ⟨inner, .head hchild hcontains, hinner⟩
  · rintro ⟨inner, hcontains, hinner⟩
    induction hcontains using Relation.ReflTransGen.head_induction_on with
    | refl => exact (step inner x).mpr (.inl hinner)
    | head hchild _ ih => exact (step _ x).mpr (.inr ⟨_, hchild, ih⟩)
termination_by sizeOf outer

/-- A part and everything inside it, each node before its children. -/
def CodePart.preorder (part : CodePart name) : List (CodePart name) :=
  part :: part.children.attach.flatMap fun child => child.1.preorder
termination_by sizeOf part
decreasing_by exact sizeOf_children child.2

theorem CodePart.preorder_eq (part : CodePart name) :
    part.preorder = part :: part.children.flatMap CodePart.preorder := by
  rw [CodePart.preorder, List.flatMap_def, List.flatMap_def, List.attach_map_val]

/-- A traversal that visits a part and its children in some order finds, as often, what every part has of its
own. -/
theorem traversal_perm
    (step : ∀ part, List.Perm (collect part) (own part ++ part.children.flatMap collect)) (part : CodePart name) :
    List.Perm (collect part) (part.preorder.flatMap own) := by
  have hchildren : List.Perm (part.children.flatMap collect)
      (part.children.flatMap fun child => child.preorder.flatMap own) :=
    List.Perm.flatMap_left _ fun child hchild =>
      have hless := sizeOf_children hchild
      traversal_perm step child
  rw [CodePart.preorder_eq, List.flatMap_cons, List.flatMap_assoc]
  exact (step part).trans (hchildren.append_left _)
termination_by sizeOf part

end Traversals

end Tala.Syntax
