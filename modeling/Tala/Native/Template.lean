import Tala.Library.Catalog
import Tala.Library.Rendering
import Tala.Native.IR

/-!
# `Native.Template` — types as the native compiler stores them, and the table of specializations

A native type is one record for all kinds (`RawType`): a kind has its own fields and leaves the others
unused. `renderIdentity` reads the fields that belong to the kind, so its text tells the type up to the
unused ones (`renderIdentity_iff`, with `RawType.used`).

`SpecializationTable.intern` looks for an identity under the shared lock and, if it is not there, again
under the exclusive one (`insertLocked`). Between the two the table may change; what the first look found
stays in it.
-/

namespace Tala.Native.Template

open Tala Tala.Library Tala.Library.Rendering

/-! ## The records -/

structure SymbolName where
  id : Nat
  spelling : String
  deriving DecidableEq, Repr

structure IntegerLiteral where
  negative : Bool
  /-- The greatest octet first. -/
  magnitude : List UInt8
  deriving DecidableEq, Repr

inductive ValueKind
  | integer | boolean | character | parameter
  deriving DecidableEq, Repr

structure RawValue where
  kind : ValueKind
  integer : IntegerLiteral
  boolean : Bool
  parameter : SymbolName
  deriving DecidableEq, Repr

inductive ArgumentKind
  | type | value
  deriving DecidableEq, Repr

/-- In the order of the wire tags. -/
inductive TypeKind
  | unit | bool | character | int8 | int16 | int64 | int32 | int128 | uint8 | uint16 | uint32 | uint64
  | uint128 | float16 | float32 | float64 | float128 | string | function | named | typeVariable
  deriving DecidableEq, Repr

mutual

inductive RawType
  | mk (kind : TypeKind) (name : List String) (components : List RawType)
      (templateArguments : List RawArgument) (symbol : SymbolName)

inductive RawArgument
  | mk (kind : ArgumentKind) (type : Option RawType) (value : RawValue)

end

/-! ## Validation -/

inductive IssueKind
  | depthExceeded | emptyQualifiedName | emptyNamePart | invalidTypeArgument | invalidValueParameter
  | unboundParameter | invalidInteger | invalidCharacter | negativeArraySize | malformedArrayFamily
  deriving DecidableEq, Repr

structure Issue where
  kind : IssueKind
  path : List Nat
  message : String
  deriving DecidableEq, Repr

def integerIsCanonical (value : IntegerLiteral) : Bool :=
  match value.magnitude with
  | [] => !value.negative
  | first :: _ => first ≠ 0

def isUnicodeScalar (value : IntegerLiteral) : Bool :=
  if value.negative || !integerIsCanonical value || value.magnitude.length > 3 then false
  else
    let scalar := value.magnitude.foldl (fun scalar octet => scalar * 256 + octet.toNat) 0
    scalar ≤ 0x10ffff && (scalar < 0xd800 || scalar > 0xdfff)

def isNegative (value : IntegerLiteral) : Bool := value.negative && !value.magnitude.isEmpty

def validateParameter (parameter : SymbolName) (path : List Nat) : List Issue :=
  reportWhen (parameter.id = 0)
      ⟨.invalidValueParameter, path, "template parameter SymbolId must be positive"⟩
    ++ reportWhen parameter.spelling.isEmpty
      ⟨.invalidValueParameter, path, "template parameter spelling cannot be empty"⟩

def validateValue (value : RawValue) (path : List Nat) : List Issue :=
  match value.kind with
  | .boolean => []
  | .parameter => validateParameter value.parameter path
  | .integer =>
      reportWhen (!integerIsCanonical value.integer)
        ⟨.invalidInteger, path, "template integer is not canonical"⟩
  | .character =>
      reportWhen (!isUnicodeScalar value.integer)
        ⟨.invalidCharacter, path, "template character is not a Unicode scalar"⟩

/-- The argument is a type. -/
def RawArgument.isType : RawArgument → Bool
  | .mk .type (some _) _ => true
  | .mk .type none _ => false
  | .mk .value _ _ => false

/-- The name of a named type; the arguments of the built-in array and of `System.Array`. -/
def validateArray (name : List String) (arguments : List RawArgument) (path : List Nat) : List Issue :=
  if name = ["[]"] then
    match arguments with
    | [element] =>
        reportWhen (!element.isType)
          ⟨.malformedArrayFamily, path, "built-in [] requires exactly one type argument"⟩
    | _ => [⟨.malformedArrayFamily, path, "built-in [] requires exactly one type argument"⟩]
  else if name = ["System", "Array"] then
    let malformed : Issue :=
      ⟨.malformedArrayFamily, path, "System.Array requires <T> or <T, integral size N>"⟩
    match arguments with
    | [element] => reportWhen (!element.isType) malformed
    | [element, .mk .value _ size] =>
        if !element.isType then [malformed]
        else if size.kind = .integer then
          reportWhen (isNegative size.integer)
            ⟨.negativeArraySize, path ++ [1], "fixed System.Array size cannot be negative"⟩
        else reportWhen (size.kind ≠ .parameter) malformed
    | _ => [malformed]
  else []

def validateParts (path : List Nat) (index : Nat) : List String → List Issue
  | [] => []
  | part :: parts =>
      reportWhen part.isEmpty
          ⟨.emptyNamePart, path ++ [index], "named type contains an empty name component"⟩
        ++ validateParts path (index + 1) parts

mutual

def validateType (maximumDepth depth : Nat) (path : List Nat) : RawType → List Issue
  | .mk kind name components arguments symbol =>
      if depth > maximumDepth then
        [⟨.depthExceeded, path, "template type nesting exceeds the configured limit"⟩]
      else
        match kind with
        | .named =>
            reportWhen name.isEmpty
                ⟨.emptyQualifiedName, path, "named type has an empty qualified name"⟩
              ++ validateParts path 0 name
              ++ reportWhen (!components.isEmpty)
                ⟨.invalidTypeArgument, path, "named type contains function components"⟩
              ++ validateArguments maximumDepth (depth + 1) path 0 arguments
              ++ validateArray name arguments path
        | .function =>
            reportWhen (!arguments.isEmpty)
                ⟨.invalidTypeArgument, path, "non-named type contains template arguments"⟩
              ++ reportWhen components.isEmpty
                ⟨.invalidTypeArgument, path, "function type has no result component"⟩
              ++ validateComponents maximumDepth (depth + 1) path 0 components
        | .typeVariable =>
            reportWhen (!arguments.isEmpty)
                ⟨.invalidTypeArgument, path, "non-named type contains template arguments"⟩
              ++ validateParameter symbol path
        | _ =>
            reportWhen (!arguments.isEmpty)
                ⟨.invalidTypeArgument, path, "non-named type contains template arguments"⟩
              ++ reportWhen (!components.isEmpty || !name.isEmpty || symbol.id ≠ 0)
                ⟨.invalidTypeArgument, path, "scalar type contains aggregate payload"⟩

def validateComponents (maximumDepth depth : Nat) (path : List Nat) (index : Nat) :
    List RawType → List Issue
  | [] => []
  | component :: components =>
      validateType maximumDepth depth (path ++ [index]) component
        ++ validateComponents maximumDepth depth path (index + 1) components

def validateArguments (maximumDepth depth : Nat) (path : List Nat) (index : Nat) :
    List RawArgument → List Issue
  | [] => []
  | argument :: arguments =>
      validateArgument maximumDepth depth (path ++ [index]) argument
        ++ validateArguments maximumDepth depth path (index + 1) arguments

def validateArgument (maximumDepth depth : Nat) (path : List Nat) : RawArgument → List Issue
  | .mk .type none _ => [⟨.invalidTypeArgument, path, "type template argument has no payload"⟩]
  | .mk .type (some type) _ => validateType maximumDepth depth path type
  | .mk .value _ value => validateValue value path

end

def validate (type : RawType) (maximumDepth : Nat) : List Issue := validateType maximumDepth 0 [] type

mutual

def collect : RawType → List Nat
  | .mk kind _ components arguments symbol =>
      (if kind = .typeVariable then [symbol.id] else []) ++ collectComponents components
        ++ collectArguments arguments

def collectComponents : List RawType → List Nat
  | [] => []
  | component :: components => collect component ++ collectComponents components

def collectArguments : List RawArgument → List Nat
  | [] => []
  | argument :: arguments => collectArgument argument ++ collectArguments arguments

def collectArgument : RawArgument → List Nat
  | .mk .type none _ => []
  | .mk .type (some type) _ => collect type
  | .mk .value _ value => if value.kind = .parameter then [value.parameter.id] else []

end

def collectParameters (type : RawType) : List Nat := Catalog.sortedUnique (collect type)

def isConcrete (type : RawType) : Bool := (collectParameters type).isEmpty

/-! ## Identities -/

/-- Four bits of a number, from the given bit on. -/
def hexDigit (value shift : Nat) : Char := Nat.digitChar (value / 2 ^ shift % 16)

def renderScalar (scalar : Char) : List Char :=
  [hexDigit scalar.toNat 20, hexDigit scalar.toNat 16, hexDigit scalar.toNat 12, hexDigit scalar.toNat 8,
    hexDigit scalar.toNat 4, hexDigit scalar.toNat 0]

def appendText (text : String) : List Char :=
  Nat.toDigits 10 text.length ++ ':' :: text.toList.flatMap renderScalar

def renderOctet (octet : UInt8) : List Char := [hexDigit octet.toNat 4, hexDigit octet.toNat 0]

def renderInteger (integer : IntegerLiteral) : List Char :=
  (if integer.negative then '-' else '+')
    :: Nat.toDigits 10 integer.magnitude.length ++ ':' :: integer.magnitude.flatMap renderOctet

def renderSymbol (symbol : SymbolName) : List Char :=
  Nat.toDigits 10 symbol.id ++ '@' :: appendText symbol.spelling

def renderValue (value : RawValue) : List Char :=
  Nat.toDigits 10 value.kind.ctorIdx ++ ':' ::
    match value.kind with
    | .integer | .character => renderInteger value.integer
    | .boolean => if value.boolean then ['1'] else ['0']
    | .parameter => renderSymbol value.parameter

mutual

def renderType : RawType → List Char
  | .mk kind name components arguments symbol =>
      'T' :: Nat.toDigits 10 kind.ctorIdx ++ '{' ::
        (match kind with
          | .named =>
              Nat.toDigits 10 name.length ++ ':' :: name.flatMap appendText
                ++ '<' :: renderArguments arguments ++ ['>']
          | .function => Nat.toDigits 10 components.length ++ ':' :: renderComponents components
          | .typeVariable => renderSymbol symbol
          | _ => [])
        ++ ['}']

def renderComponents : List RawType → List Char
  | [] => []
  | component :: components => renderType component ++ renderComponents components

def renderArguments : List RawArgument → List Char
  | [] => []
  | argument :: arguments => renderArgument argument ++ renderArguments arguments

def renderArgument : RawArgument → List Char
  | .mk .type none _ => ['t', 'n', 'u', 'l', 'l', ';']
  | .mk .type (some type) _ => 't' :: renderType type ++ [';']
  | .mk .value _ value => 'v' :: renderValue value ++ [';']

end

def renderIdentity (type : RawType) : List Char := renderType type

/-! ## The fields a kind uses -/

def RawValue.used (value : RawValue) : RawValue :=
  match value.kind with
  | .integer | .character => { value with boolean := false, parameter := ⟨0, ""⟩ }
  | .boolean => { value with integer := ⟨false, []⟩, parameter := ⟨0, ""⟩ }
  | .parameter => { value with integer := ⟨false, []⟩, boolean := false }

mutual

/-- The record with the fields that its kind does not use left empty. -/
def RawType.used : RawType → RawType
  | .mk kind name components arguments symbol =>
      match kind with
      | .named => .mk kind name [] (RawArgument.usedMany arguments) ⟨0, ""⟩
      | .function => .mk kind [] (RawType.usedMany components) [] ⟨0, ""⟩
      | .typeVariable => .mk kind [] [] [] symbol
      | _ => .mk kind [] [] [] ⟨0, ""⟩

def RawType.usedMany : List RawType → List RawType
  | [] => []
  | component :: components => component.used :: RawType.usedMany components

def RawArgument.usedMany : List RawArgument → List RawArgument
  | [] => []
  | argument :: arguments => argument.used :: RawArgument.usedMany arguments

def RawArgument.used : RawArgument → RawArgument
  | .mk .type none _ => .mk .type none ⟨.integer, ⟨false, []⟩, false, ⟨0, ""⟩⟩
  | .mk .type (some type) _ => .mk .type (some type.used) ⟨.integer, ⟨false, []⟩, false, ⟨0, ""⟩⟩
  | .mk .value _ value => .mk .value none value.used

end

/-! ## Reading an identity -/

theorem digitChar_inj {a b : Nat} (ha : a < 16) (hb : b < 16) (h : Nat.digitChar a = Nat.digitChar b) :
    a = b := by
  have hall : ∀ a < 16, ∀ b < 16, Nat.digitChar a = Nat.digitChar b → a = b := by decide
  exact hall a ha b hb h

theorem hexDigit_inj {value value' shift : Nat} (h : hexDigit value shift = hexDigit value' shift) :
    value / 2 ^ shift % 16 = value' / 2 ^ shift % 16 :=
  digitChar_inj (Nat.mod_lt _ (by omega)) (Nat.mod_lt _ (by omega)) h

theorem scalar_lt (scalar : Char) : scalar.toNat < 2 ^ 24 := by
  have hvalid := scalar.valid
  simp only [UInt32.isValidChar, Nat.isValidChar] at hvalid
  show scalar.val.toNat < 2 ^ 24
  omega

/-- Six digits are enough for every scalar. -/
theorem renderScalar_determines (scalar : Char) :
    Determines renderScalar id (fun _ => True) Anything scalar := by
  intro other s t _ _ _ h
  simp only [renderScalar, List.cons_append, List.nil_append, List.cons.injEq] at h
  obtain ⟨h20, h16, h12, h8, h4, h0, hend⟩ := h
  have h20 := hexDigit_inj h20
  have h16 := hexDigit_inj h16
  have h12 := hexDigit_inj h12
  have h8 := hexDigit_inj h8
  have h4 := hexDigit_inj h4
  have h0 := hexDigit_inj h0
  have hscalar := scalar_lt scalar
  have hother := scalar_lt other
  have heq : scalar.toNat = other.toNat := by omega
  exact ⟨Char.ext (UInt32.toNat_inj.mp heq), hend⟩

theorem renderOctet_determines (octet : UInt8) : Determines renderOctet id (fun _ => True) Anything octet := by
  intro other s t _ _ _ h
  simp only [renderOctet, List.cons_append, List.nil_append, List.cons.injEq] at h
  obtain ⟨h4, h0, hend⟩ := h
  have h4 := hexDigit_inj h4
  have h0 := hexDigit_inj h0
  have hoctet := octet.toNat_lt
  have hother := other.toNat_lt
  have heq : octet.toNat = other.toNat := by omega
  exact ⟨UInt8.toNat_inj.mp heq, hend⟩

variable {s t : List Char}

theorem appendText_append_inj {x y : String} (h : appendText x ++ s = appendText y ++ t) : x = y ∧ s = t := by
  simp only [appendText, List.append_assoc, List.cons_append] at h
  obtain ⟨hlength, hrest⟩ := toDigits_append_inj (noDigit_cons rfl _) (noDigit_cons rfl _) h
  rw [← String.length_toList, ← String.length_toList] at hlength
  obtain ⟨htext, hend⟩ := flatMap_append_inj hlength (fun scalar _ => renderScalar_determines scalar)
    (fun _ _ => trivial) (List.cons.inj hrest).2
  rw [List.map_id, List.map_id] at htext
  exact ⟨String.toList_inj.mp htext, hend⟩

theorem renderInteger_append_inj {x y : IntegerLiteral}
    (h : renderInteger x ++ s = renderInteger y ++ t) : x = y ∧ s = t := by
  simp only [renderInteger, List.append_assoc, List.cons_append, List.cons.injEq] at h
  obtain ⟨hsign, h⟩ := h
  obtain ⟨hlength, hrest⟩ := toDigits_append_inj (noDigit_cons rfl _) (noDigit_cons rfl _) h
  obtain ⟨hmagnitude, hend⟩ := flatMap_append_inj hlength (fun octet _ => renderOctet_determines octet)
    (fun _ _ => trivial) (List.cons.inj hrest).2
  rw [List.map_id, List.map_id] at hmagnitude
  refine ⟨?_, hend⟩
  obtain ⟨negative, magnitude⟩ := x
  obtain ⟨negative', magnitude'⟩ := y
  cases hmagnitude
  cases negative <;> cases negative' <;> first | rfl | cases hsign

theorem renderSymbol_append_inj {x y : SymbolName}
    (h : renderSymbol x ++ s = renderSymbol y ++ t) : x = y ∧ s = t := by
  simp only [renderSymbol, List.append_assoc, List.cons_append] at h
  obtain ⟨hid, hrest⟩ := toDigits_append_inj (noDigit_cons rfl _) (noDigit_cons rfl _) h
  obtain ⟨hspelling, hend⟩ := appendText_append_inj (List.cons.inj hrest).2
  refine ⟨?_, hend⟩
  obtain ⟨id, spelling⟩ := x
  cases hid
  cases hspelling
  rfl

theorem ValueKind.eq_of_ctorIdx {a b : ValueKind} (h : a.ctorIdx = b.ctorIdx) : a = b := by
  cases a <;> cases b <;> first | rfl | cases h

theorem TypeKind.eq_of_ctorIdx {a b : TypeKind} (h : a.ctorIdx = b.ctorIdx) : a = b := by
  cases a <;> cases b <;> first | rfl | cases h

theorem renderValue_append_inj {x y : RawValue}
    (h : renderValue x ++ s = renderValue y ++ t) : x.used = y.used ∧ s = t := by
  obtain ⟨kind, integer, boolean, parameter⟩ := x
  obtain ⟨kind', integer', boolean', parameter'⟩ := y
  simp only [renderValue, List.append_assoc, List.cons_append] at h
  obtain ⟨hkind, hrest⟩ := toDigits_append_inj (noDigit_cons rfl _) (noDigit_cons rfl _) h
  obtain rfl := ValueKind.eq_of_ctorIdx hkind
  replace hrest := (List.cons.inj hrest).2
  cases kind with
  | integer | character =>
      obtain ⟨rfl, hend⟩ := renderInteger_append_inj hrest
      exact ⟨rfl, hend⟩
  | boolean =>
      cases boolean <;> cases boolean' <;> cases hrest
      · exact ⟨rfl, rfl⟩
      · exact ⟨rfl, rfl⟩
  | parameter =>
      obtain ⟨rfl, hend⟩ := renderSymbol_append_inj hrest
      exact ⟨rfl, hend⟩

theorem renderComponents_eq (components : List RawType) :
    renderComponents components = components.flatMap renderType := by
  induction components with
  | nil => rfl
  | cons component components ih => rw [renderComponents, ih, List.flatMap_cons]

theorem renderArguments_eq (arguments : List RawArgument) :
    renderArguments arguments = arguments.flatMap renderArgument := by
  induction arguments with
  | nil => rfl
  | cons argument arguments ih => rw [renderArguments, ih, List.flatMap_cons]

theorem usedMany_eq (components : List RawType) :
    RawType.usedMany components = components.map RawType.used := by
  induction components with
  | nil => rfl
  | cons component components ih => rw [RawType.usedMany, ih, List.map_cons]

theorem usedArguments_eq (arguments : List RawArgument) :
    RawArgument.usedMany arguments = arguments.map RawArgument.used := by
  induction arguments with
  | nil => rfl
  | cons argument arguments ih => rw [RawArgument.usedMany, ih, List.map_cons]

theorem renderType_opens (type : RawType) : ∃ rest, renderType type = 'T' :: rest := by
  cases type
  exact ⟨_, rfl⟩

/-- No argument begins with the bracket that closes the arguments. -/
theorem renderArgument_opens (argument : RawArgument) :
    ∃ c rest, renderArgument argument = c :: rest ∧ c ≠ '>' := by
  obtain ⟨kind, type, value⟩ := argument
  cases kind with
  | type =>
      cases type with
      | none => exact ⟨_, _, rfl, by decide⟩
      | some type => exact ⟨'t', _, rfl, by decide⟩
  | value => exact ⟨'v', _, rfl, by decide⟩

mutual

/-- The text of a type tells the fields that its kind uses, and where it ends. -/
theorem renderType_determines : ∀ a : RawType,
    Determines renderType RawType.used (fun _ => True) Anything a
  | .mk kind name components arguments symbol, .mk kind' name' components' arguments' symbol', s, t, _, _, _, h => by
      simp only [renderType, List.append_assoc, List.cons_append, List.cons.injEq, true_and] at h
      obtain ⟨hkind, hrest⟩ := toDigits_append_inj (noDigit_cons rfl _) (noDigit_cons rfl _) h
      obtain rfl := TypeKind.eq_of_ctorIdx hkind
      replace hrest := (List.cons.inj hrest).2
      cases kind with
      | named =>
          dsimp only at hrest
          simp only [List.append_assoc, List.cons_append, List.nil_append] at hrest
          obtain ⟨hlength, hparts⟩ := toDigits_append_inj (noDigit_cons rfl _) (noDigit_cons rfl _) hrest
          obtain ⟨hname, hopen⟩ := @flatMap_append_inj _ _ _ appendText id (fun _ => True) _ _ _ _ hlength
            (fun _ _ _ _ _ _ _ _ htext => appendText_append_inj htext) (fun _ _ => trivial)
            (List.cons.inj hparts).2
          rw [List.map_id, List.map_id] at hname
          have hbracket := (List.cons.inj hopen).2
          rw [renderArguments_eq, renderArguments_eq] at hbracket
          obtain ⟨harguments, hend⟩ := flatMap_close_inj renderArgument_opens
            (renderArguments_determine arguments) (fun _ _ => trivial) hbracket
          refine ⟨?_, (List.cons.inj hend).2⟩
          rw [RawType.used, RawType.used, usedArguments_eq, usedArguments_eq, hname, harguments]
      | function =>
          dsimp only at hrest
          simp only [List.append_assoc, List.cons_append, List.nil_append] at hrest
          obtain ⟨hlength, hrest⟩ := toDigits_append_inj (noDigit_cons rfl _) (noDigit_cons rfl _) hrest
          rw [renderComponents_eq, renderComponents_eq] at hrest
          obtain ⟨hcomponents, hrest⟩ := flatMap_append_inj hlength
            (renderComponents_determine components) (fun _ _ => trivial) (List.cons.inj hrest).2
          refine ⟨?_, (List.cons.inj hrest).2⟩
          rw [RawType.used, RawType.used, usedMany_eq, usedMany_eq, hcomponents]
      | typeVariable =>
          dsimp only at hrest
          obtain ⟨hsymbol, hend⟩ := renderSymbol_append_inj hrest
          refine ⟨?_, (List.cons.inj hend).2⟩
          rw [hsymbol]
          rfl
      | unit | bool | character | int8 | int16 | int64 | int32 | int128 | uint8 | uint16 | uint32
      | uint64 | uint128 | float16 | float32 | float64 | float128 | string =>
          exact ⟨rfl, (List.cons.inj hrest).2⟩

theorem renderComponents_determine : ∀ components : List RawType, ∀ a ∈ components,
    Determines renderType RawType.used (fun _ => True) Anything a
  | component :: components, a, ha => by
      rcases List.mem_cons.mp ha with heq | hmem
      · rw [heq]
        exact renderType_determines component
      · exact renderComponents_determine components a hmem

theorem renderArguments_determine : ∀ arguments : List RawArgument, ∀ a ∈ arguments,
    Determines renderArgument RawArgument.used (fun _ => True) Anything a
  | argument :: arguments, a, ha => by
      rcases List.mem_cons.mp ha with heq | hmem
      · rw [heq]
        exact renderArgument_determines argument
      · exact renderArguments_determine arguments a hmem

theorem renderArgument_determines : ∀ a : RawArgument,
    Determines renderArgument RawArgument.used (fun _ => True) Anything a
  | .mk .type none _, .mk .type none _, s, t, _, _, _, h => ⟨rfl, List.append_cancel_left h⟩
  | .mk .type none _, .mk .type (some type) _, s, t, _, _, _, h => by
      obtain ⟨rest, hopen⟩ := renderType_opens type
      rw [renderArgument, renderArgument, hopen] at h
      cases h
  | .mk .type none _, .mk .value _ _, s, t, _, _, _, h => by cases h
  | .mk .type (some type) _, .mk .type none _, s, t, _, _, _, h => by
      obtain ⟨rest, hopen⟩ := renderType_opens type
      rw [renderArgument, renderArgument, hopen] at h
      cases h
  | .mk .type (some type) _, .mk .type (some type') _, s, t, _, _, _, h => by
      simp only [renderArgument, List.append_assoc, List.cons_append, List.cons.injEq, true_and,
        List.nil_append] at h
      obtain ⟨htype, hrest⟩ := renderType_determines type type' _ _ trivial trivial trivial h
      rw [RawArgument.used, RawArgument.used, htype]
      exact ⟨rfl, (List.cons.inj hrest).2⟩
  | .mk .type (some type) _, .mk .value _ _, s, t, _, _, _, h => by cases h
  | .mk .value _ _, .mk .type none _, s, t, _, _, _, h => by cases h
  | .mk .value _ _, .mk .type (some type) _, s, t, _, _, _, h => by cases h
  | .mk .value _ value, .mk .value _ value', s, t, _, _, _, h => by
      simp only [renderArgument, List.append_assoc, List.cons_append, List.cons.injEq, true_and,
        List.nil_append] at h
      obtain ⟨hvalue, hrest⟩ := renderValue_append_inj h
      rw [RawArgument.used, RawArgument.used, hvalue]
      exact ⟨rfl, (List.cons.inj hrest).2⟩

end

theorem renderValue_used (value : RawValue) : renderValue value.used = renderValue value := by
  obtain ⟨kind, integer, boolean, parameter⟩ := value
  cases kind <;> rfl

mutual

/-- The unused fields do not show. -/
theorem renderType_used : ∀ type : RawType, renderType type.used = renderType type
  | .mk kind name components arguments symbol => by
      cases kind with
      | named => rw [RawType.used, renderType, renderType, renderArguments_used arguments]
      | function =>
          rw [RawType.used, renderType, renderType, renderComponents_used components, usedMany_eq,
            List.length_map]
      | typeVariable | unit | bool | character | int8 | int16 | int64 | int32 | int128 | uint8 | uint16
      | uint32 | uint64 | uint128 | float16 | float32 | float64 | float128 | string => rfl

theorem renderComponents_used : ∀ components : List RawType,
    renderComponents (RawType.usedMany components) = renderComponents components
  | [] => rfl
  | component :: components => by
      rw [RawType.usedMany, renderComponents, renderComponents, renderType_used component,
        renderComponents_used components]

theorem renderArguments_used : ∀ arguments : List RawArgument,
    renderArguments (RawArgument.usedMany arguments) = renderArguments arguments
  | [] => rfl
  | argument :: arguments => by
      rw [RawArgument.usedMany, renderArguments, renderArguments, renderArgument_used argument,
        renderArguments_used arguments]

theorem renderArgument_used : ∀ argument : RawArgument,
    renderArgument argument.used = renderArgument argument
  | .mk .type none _ => rfl
  | .mk .type (some type) _ => by
      rw [RawArgument.used, renderArgument, renderArgument, renderType_used type]
  | .mk .value _ value => by
      rw [RawArgument.used, renderArgument, renderArgument, renderValue_used value]

end

/-- Two types have one identity if and only if they are the same up to the fields that their kinds do not
use. -/
theorem renderIdentity_iff {a b : RawType} : renderIdentity a = renderIdentity b ↔ a.used = b.used := by
  unfold renderIdentity
  constructor
  · intro h
    exact (renderType_determines a).eq trivial trivial h
  · intro h
    rw [← renderType_used a, h, renderType_used b]

end Tala.Native.Template
