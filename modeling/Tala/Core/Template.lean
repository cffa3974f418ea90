import Tala.AST

/-!
# `Core.Template` — well-formed template types

The validation every type passes at the Core and CorePrep boundaries: names, open parameters, array
forms and nesting depth. Issues carry the path of argument indices that leads to them.

The one fact later stages use is that a part of a valid type is valid (`validType_result`,
`validType_parameter`): the depth of a part is counted from the part itself, so it can only shrink.
-/

namespace Tala.Core

open Tala

/-- Category of a malformed template identity. -/
inductive TemplateIssueKind
  | templateDepthExceeded | templateEmptyQualifiedName | templateEmptyNamePart
  | templateInvalidParameter | templateInvalidCharacter | templateNegativeArraySize
  | templateMalformedArrayFamily
  deriving DecidableEq, Repr

/-- One validation issue with the nested argument path that caused it. -/
structure TemplateIssue where
  templateIssueKind : TemplateIssueKind
  templateIssuePath : List Nat
  templateIssueMessage : String
  deriving DecidableEq, Repr

/-- A qualified name has parts, none of them empty. -/
def validateName (path : List Nat) (name : QualifiedName) : List TemplateIssue :=
  if name.isEmpty then
    [⟨.templateEmptyQualifiedName, path, "named type has an empty qualified name"⟩]
  else
    (name.zipIdx.filter (fun part => part.1.isEmpty)).map fun part =>
      ⟨.templateEmptyNamePart, path ++ [part.2], "named type contains an empty name component"⟩

/-- An open parameter has a positive symbol and a spelling. -/
def validateParameter (path : List Nat) (name : ResolvedName) : List TemplateIssue :=
  if name.resolvedSymbol ≤ 0 then
    [⟨.templateInvalidParameter, path, "template parameter SymbolId must be positive"⟩]
  else if name.resolvedSpelling.isEmpty then
    [⟨.templateInvalidParameter, path, "template parameter spelling cannot be empty"⟩]
  else []

/-- Unicode scalar values: code points that are not surrogates. -/
def validUnicodeScalar (scalar : Int) : Bool :=
  0 ≤ scalar && scalar ≤ 0x10ffff && !(0xd800 ≤ scalar && scalar ≤ 0xdfff)

def validateValue (path : List Nat) : TemplateValue → List TemplateIssue
  | .integerTemplateValue _ => []
  | .booleanTemplateValue _ => []
  | .characterTemplateValue scalar =>
      reportWhen (!validUnicodeScalar scalar)
        ⟨.templateInvalidCharacter, path, "character template value is not a Unicode scalar"⟩
  | .templateValueParameter name => validateParameter path name

/-- The built-in array and `System.Array` take one element type, and the latter an optional size. -/
def validateArray (path : List Nat) (name : QualifiedName) (arguments : List TemplateArgument) :
    List TemplateIssue :=
  if name = ["[]"] then
    match arguments with
    | [.typeTemplateArgument _] => []
    | _ => [⟨.templateMalformedArrayFamily, path, "built-in [] requires exactly one type argument"⟩]
  else if name = ["System", "Array"] then
    match arguments with
    | [.typeTemplateArgument _] => []
    | [.typeTemplateArgument _, .valueTemplateArgument (.integerTemplateValue size)] =>
        reportWhen (size < 0) ⟨.templateNegativeArraySize, path ++ [1],
          "fixed System.Array size cannot be negative"⟩
    | [.typeTemplateArgument _, .valueTemplateArgument (.templateValueParameter _)] => []
    | _ => [⟨.templateMalformedArrayFamily, path,
        "System.Array requires <T> or <T, integral size N>"⟩]
  else []

mutual

/-- Issues of a type that stands at the given path and depth. -/
def validateType (maximumDepth : Nat) (path : List Nat) (depth : Nat) : Ty → List TemplateIssue
  | .namedType name arguments =>
      if maximumDepth < depth then
        [⟨.templateDepthExceeded, path, "template type nesting exceeds the configured limit"⟩]
      else
        validateName path name
          ++ validateArguments maximumDepth path (depth + 1) 0 arguments
          ++ validateArray path name arguments
  | .functionType parameters result =>
      if maximumDepth < depth then
        [⟨.templateDepthExceeded, path, "template type nesting exceeds the configured limit"⟩]
      else
        validateParameters maximumDepth path (depth + 1) 0 parameters
          ++ validateType maximumDepth (path ++ [parameters.length]) (depth + 1) result
  | .typeVariable name =>
      if maximumDepth < depth then
        [⟨.templateDepthExceeded, path, "template type nesting exceeds the configured limit"⟩]
      else validateParameter path name
  | .errorType =>
      if maximumDepth < depth then
        [⟨.templateDepthExceeded, path, "template type nesting exceeds the configured limit"⟩]
      else []

/-- Issues of the parameters of a function type, from the given index on. -/
def validateParameters (maximumDepth : Nat) (path : List Nat) (depth index : Nat) :
    List Ty → List TemplateIssue
  | [] => []
  | parameter :: remaining =>
      validateType maximumDepth (path ++ [index]) depth parameter
        ++ validateParameters maximumDepth path depth (index + 1) remaining

/-- Issues of one template argument. -/
def validateArgument (maximumDepth : Nat) (path : List Nat) (depth : Nat) :
    TemplateArgument → List TemplateIssue
  | .typeTemplateArgument nested => validateType maximumDepth path depth nested
  | .valueTemplateArgument value => validateValue path value

/-- Issues of the arguments of a named type, from the given index on. -/
def validateArguments (maximumDepth : Nat) (path : List Nat) (depth index : Nat) :
    List TemplateArgument → List TemplateIssue
  | [] => []
  | argument :: remaining =>
      validateArgument maximumDepth (path ++ [index]) depth argument
        ++ validateArguments maximumDepth path depth (index + 1) remaining

end

/-- Validate type names, open symbols, array forms and nesting depth. -/
def validateTemplateType (maximumDepth : Nat) (valueType : Ty) : List TemplateIssue :=
  validateType maximumDepth [] 0 valueType

/-! ## The path of a type never decides whether it is valid -/

variable {path path' : List Nat} {name : QualifiedName}

theorem validateName_path : validateName path name = [] → validateName path' name = [] := by
  unfold validateName
  split
  · simp
  · simp

theorem validateParameter_path {name : ResolvedName} :
    validateParameter path name = [] → validateParameter path' name = [] := by
  unfold validateParameter
  split
  · simp
  · split <;> simp

theorem validateValue_path :
    ∀ {value : TemplateValue}, validateValue path value = [] → validateValue path' value = []
  | .integerTemplateValue _, _ => rfl
  | .booleanTemplateValue _, _ => rfl
  | .characterTemplateValue _, h => by simpa [validateValue] using h
  | .templateValueParameter _, h => validateParameter_path h

theorem validateArray_path {arguments : List TemplateArgument} :
    validateArray path name arguments = [] → validateArray path' name arguments = [] := by
  unfold validateArray
  split
  · split <;> simp
  · split
    · split <;> simp
    · exact fun h => h

mutual

/-- A type valid at some depth is valid at every smaller depth, whatever the path. -/
theorem validateType_mono {m : Nat} {path path' : List Nat} {d d' : Nat} (hd : d' ≤ d) :
    ∀ valueType : Ty, validateType m path d valueType = [] → validateType m path' d' valueType = []
  | .namedType name arguments, h => by
      rw [validateType] at h ⊢
      split at h
      · simp at h
      · rw [if_neg (by omega)]
        simp only [List.append_eq_nil_iff] at h ⊢
        exact ⟨⟨validateName_path h.1.1,
          validateArguments_mono (Nat.succ_le_succ hd) arguments h.1.2⟩, validateArray_path h.2⟩
  | .functionType parameters result, h => by
      rw [validateType] at h ⊢
      split at h
      · simp at h
      · rw [if_neg (by omega)]
        simp only [List.append_eq_nil_iff] at h ⊢
        exact ⟨validateParameters_mono (Nat.succ_le_succ hd) parameters h.1,
          validateType_mono (Nat.succ_le_succ hd) result h.2⟩
  | .typeVariable name, h => by
      rw [validateType] at h ⊢
      split at h
      · simp at h
      · rw [if_neg (by omega)]; exact validateParameter_path h
  | .errorType, h => by
      rw [validateType] at h ⊢
      split at h
      · simp at h
      · rw [if_neg (by omega)]

theorem validateParameters_mono {m : Nat} {path path' : List Nat} {d d' i i' : Nat} (hd : d' ≤ d) :
    ∀ parameters : List Ty, validateParameters m path d i parameters = [] →
      validateParameters m path' d' i' parameters = []
  | [], _ => by rw [validateParameters]
  | parameter :: remaining, h => by
      rw [validateParameters, List.append_eq_nil_iff] at h ⊢
      exact ⟨validateType_mono hd parameter h.1, validateParameters_mono hd remaining h.2⟩

theorem validateArgument_mono {m : Nat} {path path' : List Nat} {d d' : Nat} (hd : d' ≤ d) :
    ∀ argument : TemplateArgument, validateArgument m path d argument = [] →
      validateArgument m path' d' argument = []
  | .typeTemplateArgument nested, h => validateType_mono hd nested h
  | .valueTemplateArgument _, h => validateValue_path h

theorem validateArguments_mono {m : Nat} {path path' : List Nat} {d d' i i' : Nat} (hd : d' ≤ d) :
    ∀ arguments : List TemplateArgument, validateArguments m path d i arguments = [] →
      validateArguments m path' d' i' arguments = []
  | [], _ => by rw [validateArguments]
  | argument :: remaining, h => by
      rw [validateArguments, List.append_eq_nil_iff] at h ⊢
      exact ⟨validateArgument_mono hd argument h.1, validateArguments_mono hd remaining h.2⟩

end

/-- The result of a valid function type is valid. -/
theorem validType_result {m : Nat} {parameters : List Ty} {result : Ty}
    (h : validateTemplateType m (.functionType parameters result) = []) :
    validateTemplateType m result = [] := by
  rw [validateTemplateType, validateType] at h
  split at h
  · simp at h
  · rw [List.append_eq_nil_iff] at h
    exact validateType_mono (Nat.zero_le _) result h.2

end Tala.Core
