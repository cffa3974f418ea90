import Tala.Native.IR

/-!
# `Native.Scalar` — what the native stages ask of types and literals

The scalar catalog (`describeScalar`), which integers and literals a type admits (`integerFits`,
`validateLiteral`), which types are reference counted (`isAarcType`), the callable contracts, and the
check of a runtime call by the kinds of its operands.

Integer magnitudes are natural numbers here, so a magnitude with leading zero octets is not represented;
the source rejects those wherever a literal is validated.
-/

namespace Tala.Native

open Tala Tala.Core

/-! ## Equality of types -/

mutual

/-- Structural equality of native types. -/
def NativeType.beq : NativeType → NativeType → Bool
  | .scalar kind, .scalar kind' => kind = kind'
  | .function components, .function components' => NativeType.beqList components components'
  | .named name arguments, .named name' arguments' =>
      name = name' && NativeTemplateArgument.beqList arguments arguments'
  | .typeVariable symbol, .typeVariable symbol' => symbol = symbol'
  | _, _ => false
termination_by structural a => a

def NativeType.beqList : List NativeType → List NativeType → Bool
  | [], [] => true
  | a :: as, b :: bs => NativeType.beq a b && NativeType.beqList as bs
  | _, _ => false
termination_by structural a => a

def NativeTemplateArgument.beq : NativeTemplateArgument → NativeTemplateArgument → Bool
  | .type type, .type type' => NativeType.beq type type'
  | .value value, .value value' => value = value'
  | _, _ => false
termination_by structural a => a

def NativeTemplateArgument.beqList :
    List NativeTemplateArgument → List NativeTemplateArgument → Bool
  | [], [] => true
  | a :: as, b :: bs => NativeTemplateArgument.beq a b && NativeTemplateArgument.beqList as bs
  | _, _ => false
termination_by structural a => a

end

mutual

theorem NativeType.beq_iff : ∀ a b : NativeType, NativeType.beq a b = true ↔ a = b
  | .scalar kind, b => by cases b <;> simp [NativeType.beq]
  | .function components, b => by
      cases b <;> simp [NativeType.beq, NativeType.beqList_iff components]
  | .named name arguments, b => by
      cases b <;> simp [NativeType.beq, NativeTemplateArgument.beqList_iff arguments]
  | .typeVariable symbol, b => by cases b <;> simp [NativeType.beq]

theorem NativeType.beqList_iff : ∀ a b : List NativeType, NativeType.beqList a b = true ↔ a = b
  | [], b => by cases b <;> simp [NativeType.beqList]
  | a :: as, b => by
      cases b <;> simp [NativeType.beqList, NativeType.beq_iff a, NativeType.beqList_iff as]

theorem NativeTemplateArgument.beq_iff :
    ∀ a b : NativeTemplateArgument, NativeTemplateArgument.beq a b = true ↔ a = b
  | .type type, b => by cases b <;> simp [NativeTemplateArgument.beq, NativeType.beq_iff type]
  | .value value, b => by cases b <;> simp [NativeTemplateArgument.beq]

theorem NativeTemplateArgument.beqList_iff : ∀ a b : List NativeTemplateArgument,
    NativeTemplateArgument.beqList a b = true ↔ a = b
  | [], b => by cases b <;> simp [NativeTemplateArgument.beqList]
  | a :: as, b => by
      cases b <;> simp [NativeTemplateArgument.beqList, NativeTemplateArgument.beq_iff a,
        NativeTemplateArgument.beqList_iff as]

end

instance : DecidableEq NativeType := fun a b => decidable_of_iff _ (NativeType.beq_iff a b)

/-! ## The scalar catalog -/

inductive ScalarFamily
  | boolean | character | signedInteger | unsignedInteger | floating
  deriving DecidableEq, Repr

/-- Family and width in bits of a scalar kind. -/
def describeScalarKind : ScalarKind → Option (ScalarFamily × Nat)
  | .bool => some (.boolean, 8)
  | .character => some (.character, 32)
  | .int8 => some (.signedInteger, 8)
  | .int16 => some (.signedInteger, 16)
  | .int32 => some (.signedInteger, 32)
  | .int64 => some (.signedInteger, 64)
  | .int128 => some (.signedInteger, 128)
  | .uint8 => some (.unsignedInteger, 8)
  | .uint16 => some (.unsignedInteger, 16)
  | .uint32 => some (.unsignedInteger, 32)
  | .uint64 => some (.unsignedInteger, 64)
  | .uint128 => some (.unsignedInteger, 128)
  | .float16 => some (.floating, 16)
  | .float32 => some (.floating, 32)
  | .float64 => some (.floating, 64)
  | .float128 => some (.floating, 128)
  | .unit => none
  | .string => none

def describeScalar (type : NativeType) : Option (ScalarFamily × Nat) :=
  type.scalarKind?.bind describeScalarKind

def isInteger (type : NativeType) : Bool :=
  (describeScalar type).any fun description =>
    description.1 = .signedInteger || description.1 = .unsignedInteger

def isFloating (type : NativeType) : Bool :=
  (describeScalar type).any fun description => description.1 = .floating

def isNumeric (type : NativeType) : Bool := isInteger type || isFloating type

/-! ## Literals -/

/-- A magnitude of zero is canonical when it is not negative. -/
def integerIsCanonical (value : IntegerLiteral) : Bool := value.magnitude ≠ 0 || !value.negative

/-- The number of bits of a magnitude. -/
def significantBits (value : IntegerLiteral) : Nat :=
  if value.magnitude = 0 then 0 else Nat.log2 value.magnitude + 1

/-- The least value of a signed type, whose magnitude takes one bit more. -/
def isExactSignedMinimum (value : IntegerLiteral) (width : Nat) : Bool :=
  value.negative && value.magnitude = 2 ^ (width - 1)

/-- Whether a type has a value for an integer payload. -/
def integerFits (value : IntegerLiteral) (type : NativeType) : Bool :=
  match describeScalar type with
  | none => false
  | some (family, width) =>
      if !integerIsCanonical value then false
      else
        match family with
        | .character => !value.negative && significantBits value ≤ 32
        | .unsignedInteger => !value.negative && significantBits value ≤ width
        | .signedInteger =>
            significantBits value < width || (value.negative && isExactSignedMinimum value width)
        | .boolean => false
        | .floating => false

def isDigit (c : Char) : Bool := '0' ≤ c && c ≤ '9'

/-- What follows an optional sign. -/
def skipSign : List Char → List Char
  | '+' :: rest => rest
  | '-' :: rest => rest
  | spelling => spelling

/-- What follows the digits, and whether there were any. -/
def skipDigits (spelling : List Char) : Bool × List Char :=
  ((spelling.takeWhile isDigit) ≠ [], spelling.dropWhile isDigit)

/-- An exponent, or nothing, up to the end. -/
def exponentIsValid (spelling : List Char) : Bool :=
  match spelling with
  | [] => true
  | c :: rest =>
      if c = 'e' || c = 'E' then
        let exponent := skipDigits (skipSign rest)
        exponent.1 && exponent.2 = []
      else false

/-- Whether a floating payload is spelled canonically. -/
def floatingSpellingIsValid (spelling : String) : Bool :=
  if ["nan", "+nan", "-nan", "inf", "+inf", "-inf"].contains spelling then true
  else
    let integral := skipDigits (skipSign spelling.toList)
    let fractional :=
      match integral.2 with
      | '.' :: rest => skipDigits rest
      | rest => (false, rest)
    if !integral.1 && !fractional.1 then false else exponentIsValid fractional.2

/-- Why a payload does not fit a type, when it does not. -/
def validateLiteral (literal : Literal) (type : NativeType) : Option String :=
  match literal with
  | .monostate =>
      match type with
      | .scalar .unit => none
      | .named _ _ => none
      | .scalar .string => none
      | .function _ => none
      | _ => some "empty payload requires unit or an AARC reference type"
  | .boolean _ => if type = .scalar .bool then none else some "boolean payload requires bool type"
  | .int64 value =>
      if integerFits (integerFromSigned value) type then none
      else some "signed integer payload is outside its scalar type"
  | .int32 value =>
      if integerFits (integerFromSigned value) type then none
      else some "signed integer payload is outside its scalar type"
  | .integer value =>
      if integerFits value type then none
      else some "integer payload is non-canonical or outside its scalar type"
  | .floating spelling =>
      if !isFloating type then some "floating payload requires a floating scalar type"
      else if !floatingSpellingIsValid spelling then
        some "floating payload has an invalid canonical spelling"
      else none
  | .text _ => if type = .scalar .string then none else some "text payload requires string type"

/-! ## Ownership and callables -/

/-- `UsesAarc(type) || type.kind == Kind::Named`: strings, callables and surviving nominal types. -/
def isAarcType : NativeType → Bool
  | .scalar kind => kind = .string
  | .function _ => true
  | .named _ _ => true
  | .typeVariable _ => false

/-- `type.kind == Kind::Function`. -/
def isFunctionType : NativeType → Bool
  | .function _ => true
  | _ => false

/-- `type.kind == Kind::Named`. -/
def isNamedType : NativeType → Bool
  | .named _ _ => true
  | _ => false

/-- Parameters and result of a function type; nothing for another type or one without components. -/
def decompose : NativeType → Option (List NativeType × NativeType)
  | .function components => components.getLast?.map fun result => (components.dropLast, result)
  | _ => none

/-- Why a lifted closure target does not match its public signature. -/
inductive ClosureContractError
  | resultIsNotCallable | targetHasTooFewParameters | captureTypeMismatch
  | publicParameterCountMismatch | publicParameterTypeMismatch | resultTypeMismatch
  deriving DecidableEq, Repr

/-- The first violation of the contract of a lifted closure: its captures come first among the target's
parameters, its public parameters and its result are those of the callable. -/
def validateClosure (captures targetParameters : List NativeType)
    (targetResult publicCallable : NativeType) : Option ClosureContractError :=
  match decompose publicCallable with
  | none => some .resultIsNotCallable
  | some (parameters, result) =>
      if targetParameters.length < captures.length then some .targetHasTooFewParameters
      else if captures ≠ targetParameters.take captures.length then some .captureTypeMismatch
      else if targetParameters.length - captures.length ≠ parameters.length then
        some .publicParameterCountMismatch
      else if targetParameters.drop captures.length ≠ parameters then
        some .publicParameterTypeMismatch
      else if targetResult ≠ result then some .resultTypeMismatch
      else none

/-! ## Runtime calls -/

/-- The octets of a magnitude, the most significant first. -/
def magnitudeOctets (value : IntegerLiteral) : List Nat :=
  ((List.range ((significantBits value + 7) / 8)).map fun index =>
    value.magnitude / 256 ^ index % 256).reverse

/-- The identity a first operand names. The octets are read from the last to the first, each below the
ones read before it. -/
def identityOf (literal : Literal) (type : NativeType) : Option Nat :=
  if type ≠ .scalar .int64 then none
  else
    match literal with
    | .int64 value => if value < 0 then none else some value.toNat
    | .integer value =>
        if value.negative || 8 < (magnitudeOctets value).length then none
        else some ((magnitudeOctets value).reverse.foldl (fun n octet => n * 256 + octet) 0)
    | _ => none

/-- Whether an argument of a kind may stand where the parameter is. -/
def accepts (parameter : RuntimeParameter) (type : NativeType) : Bool :=
  match parameter with
  | .signedParameter => type.scalarKind?.any [ScalarKind.int8, .int16, .int32, .int64].contains
  | .unsignedParameter => type.scalarKind?.any [ScalarKind.uint8, .uint16, .uint32, .uint64].contains
  | .floatingParameter => type.scalarKind?.any [ScalarKind.float16, .float32, .float64].contains
  | .boolParameter => type = .scalar .bool
  | .charParameter => type = .scalar .character
  | .textParameter => type = .scalar .string
  | .countParameter => type = .scalar .int64

/-- The type of a call, from what the function returns. -/
def resultType : RuntimeResult → NativeType
  | .noResult => .scalar .unit
  | .textResult => .scalar .string
  | .truthResult => .scalar .bool

/-- Check a runtime call: the function it names, the types of its arguments, the type of the call. -/
def checkRuntimeCall (named : Option RuntimeFunction) (arguments : List NativeType)
    (result : NativeType) : Option RuntimeDefect :=
  match named with
  | none => some .defectiveIdentity
  | some function =>
      if arguments.length ≠ (runtimeParameters function).length then some .defectiveArity
      else if !(List.zipWith accepts (runtimeParameters function) arguments).all id then
        some .defectiveArgument
      else if result ≠ resultType (runtimeResult function) then some .defectiveResult
      else none

/-- `runtime::Find`. -/
def findRuntimeFunction (identity : Nat) : Option RuntimeFunction := runtimeFunctionOf identity

end Tala.Native
