import Mathlib.Algebra.Order.Ring.Int
import Mathlib.Data.List.Basic

/-!
# `AST` — resolved names and semantic types

The part of the syntax tree that Core and everything after it shares: resolved names, semantic types
with their template arguments, capture modes and diagnostics.

Types are compared for equality in every verifier, so equality is a structural `Bool` function
(`Ty.beq`) with a proof that it decides `=`; the `DecidableEq` instance evaluates in the kernel.
-/

namespace Tala

/-- One source-language identifier in its original spelling. -/
abbrev Identifier := String

/-- Parts of a qualified name. -/
abbrev QualifiedName := List Identifier

/-- A name after resolution: the numeric identity of its declaration (`SymbolId`), and the spelling it
was written with. -/
structure ResolvedName where
  resolvedSymbol : Int
  resolvedSpelling : Identifier
  deriving DecidableEq, Repr

/-- Canonical value accepted as a generic argument after type checking. -/
inductive TemplateValue
  | integerTemplateValue (value : Int)
  | booleanTemplateValue (value : Bool)
  | characterTemplateValue (scalar : Int)
  | templateValueParameter (name : ResolvedName)
  deriving DecidableEq, Repr

mutual

/-- Semantic type attached to resolved expressions and declarations. -/
inductive Ty
  | namedType (name : QualifiedName) (arguments : List TemplateArgument)
  | functionType (parameters : List Ty) (result : Ty)
  | typeVariable (name : ResolvedName)
  | errorType

/-- Evaluated generic argument, in its original position of the list. -/
inductive TemplateArgument
  | typeTemplateArgument (type : Ty)
  | valueTemplateArgument (value : TemplateValue)

end

/-- Ownership mode of a captured binding. -/
inductive CaptureMode
  | strongCapture | weakCapture | unownedCapture
  deriving DecidableEq, Repr

/-! ## Equality of types -/

mutual

/-- Structural equality of types. -/
def Ty.beq : Ty → Ty → Bool
  | .namedType name arguments, .namedType name' arguments' =>
      name = name' && TemplateArgument.beqList arguments arguments'
  | .functionType parameters result, .functionType parameters' result' =>
      Ty.beqList parameters parameters' && Ty.beq result result'
  | .typeVariable name, .typeVariable name' => name = name'
  | .errorType, .errorType => true
  | _, _ => false
termination_by structural a => a

/-- `Ty.beq` elementwise. -/
def Ty.beqList : List Ty → List Ty → Bool
  | [], [] => true
  | a :: as, b :: bs => Ty.beq a b && Ty.beqList as bs
  | _, _ => false
termination_by structural a => a

/-- Structural equality of template arguments. -/
def TemplateArgument.beq : TemplateArgument → TemplateArgument → Bool
  | .typeTemplateArgument type, .typeTemplateArgument type' => Ty.beq type type'
  | .valueTemplateArgument value, .valueTemplateArgument value' => value = value'
  | _, _ => false
termination_by structural a => a

/-- `TemplateArgument.beq` elementwise. -/
def TemplateArgument.beqList : List TemplateArgument → List TemplateArgument → Bool
  | [], [] => true
  | a :: as, b :: bs => TemplateArgument.beq a b && TemplateArgument.beqList as bs
  | _, _ => false
termination_by structural a => a

end

mutual

theorem Ty.beq_iff : ∀ a b : Ty, Ty.beq a b = true ↔ a = b
  | .namedType name arguments, b => by
      cases b <;> simp [Ty.beq, TemplateArgument.beqList_iff arguments]
  | .functionType parameters result, b => by
      cases b <;> simp [Ty.beq, Ty.beqList_iff parameters, Ty.beq_iff result]
  | .typeVariable name, b => by cases b <;> simp [Ty.beq]
  | .errorType, b => by cases b <;> simp [Ty.beq]

theorem Ty.beqList_iff : ∀ a b : List Ty, Ty.beqList a b = true ↔ a = b
  | [], b => by cases b <;> simp [Ty.beqList]
  | a :: as, b => by cases b <;> simp [Ty.beqList, Ty.beq_iff a, Ty.beqList_iff as]

theorem TemplateArgument.beq_iff : ∀ a b : TemplateArgument, TemplateArgument.beq a b = true ↔ a = b
  | .typeTemplateArgument type, b => by cases b <;> simp [TemplateArgument.beq, Ty.beq_iff type]
  | .valueTemplateArgument value, b => by cases b <;> simp [TemplateArgument.beq]

theorem TemplateArgument.beqList_iff :
    ∀ a b : List TemplateArgument, TemplateArgument.beqList a b = true ↔ a = b
  | [], b => by cases b <;> simp [TemplateArgument.beqList]
  | a :: as, b => by
      cases b <;>
        simp [TemplateArgument.beqList, TemplateArgument.beq_iff a, TemplateArgument.beqList_iff as]

end

instance : DecidableEq Ty := fun a b => decidable_of_iff _ (Ty.beq_iff a b)

instance : DecidableEq TemplateArgument := fun a b =>
  decidable_of_iff _ (TemplateArgument.beq_iff a b)

/-! ## Built-in types -/

/-- A one-segment nominal type without generic arguments. -/
def namedType (spelling : String) : Ty := .namedType [spelling] []

/-- Canonical built-in Boolean type. -/
def boolType : Ty := namedType "bool"

/-- Canonical default integer type. -/
def intType : Ty := namedType "int"

/-- Canonical unit type for expressions that produce no value. -/
def unitType : Ty := namedType "unit"

/-- Canonical standard string type. -/
def stringType : Ty := namedType "String"

/-! ## Diagnostics -/

/-- Compilation stage a diagnostic comes from, among those modelled here. -/
inductive DiagnosticStage
  | coreStage | corePrepStage
  deriving DecidableEq, Repr

/-- An error report: every report of the verifiers is an error without a source span. -/
structure Diagnostic where
  diagnosticStage : DiagnosticStage
  diagnosticCode : String
  diagnosticMessage : String
  deriving DecidableEq, Repr

/-- The list comprehension `[item | condition]`: one report when the condition holds. -/
def reportWhen {α : Type} (condition : Bool) (item : α) : List α :=
  if condition then [item] else []

@[simp] theorem reportWhen_eq_nil {α : Type} (condition : Bool) (item : α) :
    reportWhen condition item = [] ↔ condition = false := by
  cases condition <;> simp [reportWhen]

end Tala
