import Tala.Core.Wire
import Tala.CorePrep.IR

/-!
# `CorePrep.Wire` — the binary form of CorePrep modules

`encodeCorePrep` writes a module as octets and `decodeCorePrep` reads it back. Words, flags and magnitudes are
written as in Core documents, while tags and errors are the format's own.

The reader of types recurses as deep as the limit allows: it takes the number of levels that are left, so that
no level is left exactly when the depth exceeds the limit.

Each reader has a flag `strict` that the source does not have. `decodeCorePrep` reads without it; with it, a
type that has a tag of its own may not be spelled as a named type.
-/

namespace Tala.CorePrep.Wire

open Tala Tala.Core Tala.Library Tala.Library.Codec
open Tala.Core.Wire (Bytes word16 word32 word64 encodeBool integerMagnitude canonicalMagnitude captureModeTag)

/-- Schema version emitted by current CorePrep encoders. -/
def currentWireVersion : Nat := 8

/-- `TACP`. -/
def wireMagic : Bytes := [84, 65, 67, 80]

/-- Resource bounds used before and during encoding and decoding. -/
structure WireLimits where
  maximumWireBytes : Int
  maximumStringCodePoints : Int
  maximumFunctions : Int
  maximumParametersPerFunction : Int
  maximumBlocksPerFunction : Int
  maximumInstructionsPerBlock : Int
  maximumOperandsPerInstruction : Int
  maximumTypeDepth : Int
  maximumNumericBytes : Int

def defaultWireLimits : WireLimits where
  maximumWireBytes := 64 * 1024 * 1024
  maximumStringCodePoints := 1024 * 1024
  maximumFunctions := 65535
  maximumParametersPerFunction := 65535
  maximumBlocksPerFunction := 1048576
  maximumInstructionsPerBlock := 1048576
  maximumOperandsPerInstruction := 65535
  maximumTypeDepth := 128
  maximumNumericBytes := 4096

/-- Category of a malformed, unsupported, or oversized wire field. -/
inductive WireErrorKind
  | invalidMagic | unsupportedVersion | truncatedInput | trailingInput | invalidTag | invalidBoolean
  | invalidCodePoint | invalidCount | invalidSymbol | invalidInteger | unsupportedType | limitExceeded
deriving DecidableEq, Repr

structure WireError where
  wireErrorKind : WireErrorKind
  wireErrorOffset : Nat
  wireErrorContext : String
  wireErrorMessage : String
deriving DecidableEq, Repr

abbrev Encoder := Except WireError Bytes

abbrev WireDecoder (α : Type) := Decoder UInt8 WireError α

/-! ## Tags -/

/-- Tags 0 to 7 preserve an old layout; later scalar tags were appended. -/
def scalarTags : List (String × UInt8) :=
  [ ("bool", 1)
  , ("int", 2)
  , ("long", 3)
  , ("char", 8)
  , ("byte", 9)
  , ("short", 10)
  , ("longint", 11)
  , ("ubyte", 12)
  , ("ushort", 13)
  , ("ulong", 14)
  , ("uint", 15)
  , ("ulongint", 16)
  , ("sfloat", 17)
  , ("lfloat", 18)
  , ("float", 19)
  , ("double", 20) ]

def scalarTypeTag : Ty → Option UInt8
  | .namedType [name] [] => scalarTags.lookup name
  | _ => none

/-- The tag of a type that has one of its own. -/
def primitiveTypeTag (valueType : Ty) : Option UInt8 :=
  if valueType = unitType then some 0
  else if valueType = boolType then some 1
  else if valueType = stringType then some 4
  else scalarTypeTag valueType

def integerWireTag (tag : UInt8) : Bool := [2, 3, 9, 10, 11, 12, 13, 14, 15, 16].contains tag

def floatingWireTag (tag : UInt8) : Bool := [17, 18, 19, 20].contains tag

def primitiveTag : CorePrimitive → UInt8
  | .coreAdd => 2
  | .coreSubtract => 3
  | .coreMultiply => 4
  | .coreDivide => 5
  | .coreFloorDivide => 6
  | .coreRemainder => 7
  | .coreLessThan => 8
  | .coreLessEqual => 9
  | .coreGreaterThan => 10
  | .coreGreaterEqual => 11
  | .coreEqual => 12
  | .coreNotEqual => 13
  | .coreLogicalAnd => 14
  | .coreLogicalOr => 15
  | .coreNegate => 16
  | .coreLogicalNot => 17
  | .corePower => 19
  | .coreShiftLeft => 20
  | .coreShiftRight => 21
  | .coreBitwiseAnd => 22
  | .coreBitwiseXor => 23
  | .coreBitwiseOr => 24
  | .coreBitwiseNot => 25
  | .coreTypeIs => 26
  | .coreMemoize => 27
  | .coreRuntimeCall => 28

/-! ## Encoding -/

def failure {α : Type} (kind : WireErrorKind) (context message : String) : Except WireError α :=
  .error ⟨kind, 0, context, message⟩

def requireLimit (context : String) (maximumValue : Int) (actual : Nat) : Except WireError Unit :=
  if actual > maximumValue then
    failure .limitExceeded context ("count " ++ toString actual ++ " exceeds limit " ++ toString maximumValue)
  else .ok ()

def encodePositive64 (context : String) (value : Int) : Encoder :=
  if value ≤ 0 then failure .invalidSymbol context "symbol id must be positive"
  else .ok (word64 value.toNat)

def encodeNonNegative32 (context : String) (value : Nat) : Encoder :=
  if value > 2 ^ 32 - 1 then failure .invalidCount context "value does not fit unsigned 32-bit wire field"
  else .ok (word32 value)

/-- A vector: its count, and the encodings of its elements. -/
def encodeVector (context : String) (maximumCount : Int) (count : Nat) (elements : Encoder) : Encoder := do
  requireLimit context maximumCount count
  let encodedCount ← encodeNonNegative32 context count
  let encodedValues ← elements
  .ok (encodedCount ++ encodedValues)

def encodeCodePoint (context : String) (character : Char) : Encoder :=
  let code := character.toNat
  if code ≥ 0xD800 && code ≤ 0xDFFF then
    failure .invalidCodePoint context "surrogate code point is not a scalar value"
  else if code > 0x10FFFF then failure .invalidCodePoint context "code point exceeds Unicode range"
  else .ok (word32 code)

def encodeText (limits : WireLimits) (context value : String) : Encoder :=
  encodeVector context limits.maximumStringCodePoints value.toList.length
    (encodeAll (encodeCodePoint context) value.toList)

def encodeInteger (limits : WireLimits) (value : Int) : Encoder := do
  let magnitude := integerMagnitude value.natAbs
  requireLimit "integer magnitude" limits.maximumNumericBytes magnitude.length
  let count ← encodeNonNegative32 "integer magnitude length" magnitude.length
  .ok (encodeBool (value < 0) ++ (count ++ magnitude))

def encodeAsciiCharacter (context : String) (character : Char) : Encoder :=
  if character.toNat ≤ 0x7f then .ok [UInt8.ofNat character.toNat]
  else failure .invalidInteger context "numeric spelling must contain ASCII characters only"

def encodeAscii (limits : WireLimits) (context value : String) : Encoder := do
  requireLimit context limits.maximumNumericBytes value.toList.length
  let count ← encodeNonNegative32 (context ++ " length") value.toList.length
  let bytes ← encodeAll (encodeAsciiCharacter context) value.toList
  .ok (count ++ bytes)

def encodeResolvedName (limits : WireLimits) (context : String) (name : ResolvedName) : Encoder := do
  let symbol ← encodePositive64 context name.resolvedSymbol
  let spelling ← encodeText limits (context ++ " spelling") name.resolvedSpelling
  .ok (symbol ++ spelling)

def encodeQualifiedName (limits : WireLimits) (name : QualifiedName) : Encoder :=
  encodeVector "qualified name part count" 65535 name.length
    (encodeAll (encodeText limits "qualified name part") name)

def encodeTemplateValue (limits : WireLimits) : TemplateValue → Encoder
  | .integerTemplateValue integer => do
      let encoded ← encodeInteger limits integer
      .ok (1 :: encoded)
  | .booleanTemplateValue boolean => .ok (2 :: encodeBool boolean)
  | .characterTemplateValue scalar => do
      let encoded ← encodeInteger limits scalar
      .ok (3 :: encoded)
  | .templateValueParameter name => do
      let encoded ← encodeResolvedName limits "template value parameter" name
      .ok (4 :: encoded)

mutual

def encodeTypeAt (limits : WireLimits) (depth : Int) (valueType : Ty) : Encoder :=
  if depth > limits.maximumTypeDepth then
    failure .limitExceeded "type" "type nesting exceeds configured limit"
  else
    match primitiveTypeTag valueType with
    | some tag => .ok [tag]
    | none =>
        match valueType with
        | .namedType name arguments => do
            let encodedName ← encodeQualifiedName limits name
            let encodedArguments ← encodeVector "template argument count" 65535 arguments.length
              (encodeTemplateArguments limits (depth + 1) arguments)
            .ok (6 :: (encodedName ++ encodedArguments))
        | .functionType parameters result => do
            let encodedParameters ← encodeVector "function type parameter count" 65535 parameters.length
              (encodeTypesAt limits (depth + 1) parameters)
            let encodedResult ← encodeTypeAt limits (depth + 1) result
            .ok (5 :: (encodedParameters ++ encodedResult))
        | .typeVariable name => do
            let encodedName ← encodeResolvedName limits "type variable symbol" name
            .ok (7 :: encodedName)
        | .errorType =>
            failure .unsupportedType "type" "unresolved ErrorType cannot cross the CorePrep boundary"
termination_by structural valueType

def encodeTypesAt (limits : WireLimits) (depth : Int) : List Ty → Encoder
  | [] => .ok []
  | valueType :: types => do
      let first ← encodeTypeAt limits depth valueType
      let others ← encodeTypesAt limits depth types
      .ok (first ++ others)
termination_by structural types => types

def encodeTemplateArgument (limits : WireLimits) (depth : Int) : TemplateArgument → Encoder
  | .typeTemplateArgument valueType => do
      let encoded ← encodeTypeAt limits depth valueType
      .ok (0 :: encoded)
  | .valueTemplateArgument value => encodeTemplateValue limits value
termination_by structural argument => argument

def encodeTemplateArguments (limits : WireLimits) (depth : Int) : List TemplateArgument → Encoder
  | [] => .ok []
  | argument :: arguments => do
      let first ← encodeTemplateArgument limits depth argument
      let others ← encodeTemplateArguments limits depth arguments
      .ok (first ++ others)
termination_by structural arguments => arguments

end

def encodeType (limits : WireLimits) (valueType : Ty) : Encoder := encodeTypeAt limits 0 valueType

def mismatchedLiteral : Encoder :=
  failure .unsupportedType "literal" "literal payload does not match its declared type"

def encodeLiteral (limits : WireLimits) (valueType : Ty) (literal : CoreLiteral) : Encoder :=
  match literal with
  | .coreUnit => if primitiveTypeTag valueType = some 0 then .ok [0] else mismatchedLiteral
  | .coreBoolean value =>
      if primitiveTypeTag valueType = some 1 then .ok (1 :: encodeBool value) else mismatchedLiteral
  | .coreInteger value =>
      match primitiveTypeTag valueType with
      | some tag =>
          if integerWireTag tag || tag = 8 then do
            let encoded ← encodeInteger limits value
            .ok (2 :: encoded)
          else mismatchedLiteral
      | none => mismatchedLiteral
  | .coreFloating spelling =>
      match primitiveTypeTag valueType with
      | some tag =>
          if floatingWireTag tag then do
            let encoded ← encodeAscii limits "floating literal" spelling
            .ok (4 :: encoded)
          else mismatchedLiteral
      | none => mismatchedLiteral
  | .coreString value =>
      if primitiveTypeTag valueType = some 4 then do
        let encoded ← encodeText limits "string literal" value
        .ok (3 :: encoded)
      else mismatchedLiteral
  -- whatever the type is
  | .coreNull => .ok [5]

def encodeAtom (limits : WireLimits) : CorePrepAtom → Encoder
  | .corePrepVariable name valueType => do
      let encodedName ← encodeResolvedName limits "variable symbol" name
      let encodedType ← encodeType limits valueType
      .ok (0 :: (encodedType ++ encodedName))
  | .corePrepLiteral literal valueType => do
      let encodedType ← encodeType limits valueType
      let encodedLiteral ← encodeLiteral limits valueType literal
      .ok (1 :: (encodedType ++ encodedLiteral))

def encodeCapture (limits : WireLimits) (capture : CorePrepCapture) : Encoder := do
  let encodedName ← encodeResolvedName limits "capture symbol" capture.corePrepCaptureName
  let encodedType ← encodeType limits capture.corePrepCaptureType
  let encodedAtom ← encodeAtom limits capture.corePrepCaptureAtom
  .ok (captureModeTag capture.corePrepCaptureMode :: (encodedName ++ (encodedType ++ encodedAtom)))

def encodeTaggedAtoms (limits : WireLimits) (tag : UInt8) (atoms : List CorePrepAtom) : Encoder := do
  let encoded ← encodeVector "operand count" limits.maximumOperandsPerInstruction atoms.length
    (encodeAll (encodeAtom limits) atoms)
  .ok (tag :: encoded)

def encodeOperation (limits : WireLimits) : CorePrepOperation → Encoder
  | .corePrepCopy atom => encodeTaggedAtoms limits 0 [atom]
  | .corePrepCall callee arguments => encodeTaggedAtoms limits 1 (callee :: arguments)
  | .corePrepPrimitive primitive arguments => encodeTaggedAtoms limits (primitiveTag primitive) arguments
  | .corePrepMakeClosure function captures => do
      let encodedFunction ← encodeResolvedName limits "closure function symbol" function
      let encodedCaptures ← encodeVector "closure capture count" limits.maximumOperandsPerInstruction
        captures.length (encodeAll (encodeCapture limits) captures)
      .ok (18 :: (encodedFunction ++ encodedCaptures))

def encodeInstruction (limits : WireLimits) : CorePrepInstruction → Encoder
  | .corePrepBind name valueType «mutable» operation => do
      let encodedName ← encodeResolvedName limits "binding symbol" name
      let encodedType ← encodeType limits valueType
      let encodedOperation ← encodeOperation limits operation
      .ok (0 :: (encodedName ++ (encodedType ++ (encodeBool «mutable» ++ encodedOperation))))
  | .corePrepAssign name atom => do
      let encodedName ← encodeResolvedName limits "assignment symbol" name
      let encodedAtom ← encodeAtom limits atom
      .ok (1 :: (encodedName ++ encodedAtom))
  | .corePrepEvaluate operation => do
      let encodedOperation ← encodeOperation limits operation
      .ok (2 :: encodedOperation)

def encodeTerminator (limits : WireLimits) : CorePrepTerminator → Encoder
  | .corePrepReturn atom => do
      let encoded ← encodeAtom limits atom
      .ok (0 :: encoded)
  | .corePrepBranch atom trueTarget falseTarget => do
      let encoded ← encodeAtom limits atom
      let trueBlock ← encodeNonNegative32 "true target" trueTarget
      let falseBlock ← encodeNonNegative32 "false target" falseTarget
      .ok (1 :: (encoded ++ (trueBlock ++ falseBlock)))
  | .corePrepJump target => do
      let encoded ← encodeNonNegative32 "jump target" target
      .ok (2 :: encoded)
  | .corePrepUnreachable => .ok [3]

def encodeBlock (limits : WireLimits) (block : CorePrepBlock) : Encoder := do
  let identifier ← encodeNonNegative32 "block id" block.corePrepBlockId
  let instructions ← encodeVector "instruction count" limits.maximumInstructionsPerBlock
    block.corePrepBlockInstructions.length
    (encodeAll (encodeInstruction limits) block.corePrepBlockInstructions)
  let terminator ← encodeTerminator limits block.corePrepBlockTerminator
  .ok (identifier ++ (instructions ++ terminator))

def encodeParameter (limits : WireLimits) (parameter : ResolvedName × Ty) : Encoder := do
  let encodedName ← encodeResolvedName limits "parameter symbol" parameter.1
  let encodedType ← encodeType limits parameter.2
  .ok (encodedName ++ encodedType)

def encodeFunction (limits : WireLimits) (function : CorePrepFunction) : Encoder := do
  let name ← encodeResolvedName limits "function symbol" function.corePrepFunctionName
  let source ← encodeText limits "function source file" function.corePrepFunctionSourceFile
  let parameters ← encodeVector "parameter count" limits.maximumParametersPerFunction
    function.corePrepFunctionParameters.length
    (encodeAll (encodeParameter limits) function.corePrepFunctionParameters)
  let result ← encodeType limits function.corePrepFunctionReturnType
  let entry ← encodeNonNegative32 "entry block" function.corePrepFunctionEntry
  let blocks ← encodeVector "block count" limits.maximumBlocksPerFunction
    function.corePrepFunctionBlocks.length (encodeAll (encodeBlock limits) function.corePrepFunctionBlocks)
  .ok (name ++ (source ++ (parameters ++ (result ++ (entry ++ blocks)))))

def encodeModule (limits : WireLimits) (moduleValue : CorePrepModule) : Encoder := do
  let name ← encodeQualifiedName limits moduleValue.corePrepModuleName
  let sources ← encodeVector "source file count" limits.maximumFunctions
    moduleValue.corePrepModuleSourceFiles.length
    (encodeAll (encodeText limits "source file") moduleValue.corePrepModuleSourceFiles)
  let functions ← encodeVector "function count" limits.maximumFunctions
    moduleValue.corePrepModuleFunctions.length
    (encodeAll (encodeFunction limits) moduleValue.corePrepModuleFunctions)
  .ok (name ++ (sources ++ functions))

/-- Encode under explicit limits, including the final serialized size. -/
def encodeCorePrepWith (limits : WireLimits) (moduleValue : CorePrepModule) : Except WireError Bytes := do
  let payload ← encodeModule limits moduleValue
  let bytes := wireMagic ++ (word16 currentWireVersion ++ (word16 0 ++ payload))
  requireLimit "wire byte length" limits.maximumWireBytes bytes.length
  .ok bytes

/-- Encode with the shared default resource bounds. -/
def encodeCorePrep (moduleValue : CorePrepModule) : Except WireError Bytes :=
  encodeCorePrepWith defaultWireLimits moduleValue

/-! ## Decoding -/

def failAt {α : Type} (kind : WireErrorKind) (context message : String) : WireDecoder α :=
  Decoder.fail fun offset => ⟨kind, offset, context, message⟩

def require (condition : Bool) (kind : WireErrorKind) (context message : String) : WireDecoder Unit :=
  Decoder.require condition fun offset => ⟨kind, offset, context, message⟩

def invalidTag {α : Type} (context : String) (tag : Nat) : WireDecoder α :=
  failAt .invalidTag context ("unknown tag " ++ toString tag)

def invalidArity {α : Type} (context : String) (expected actual : Nat) : WireDecoder α :=
  failAt .invalidCount context
    ("expected " ++ toString expected ++ " operand(s), found " ++ toString actual)

def takeBytes (context : String) (count : Nat) : WireDecoder Bytes := fun input =>
  let taken := input.rest.take count
  if taken.length = count then .ok (taken, ⟨input.rest.drop count, input.offset + count⟩)
  else .error ⟨.truncatedInput, input.offset, context,
    "needed " ++ toString count ++ " byte(s), found " ++ toString taken.length⟩

def readWord8 (context : String) : WireDecoder Nat := do
  let bytes ← takeBytes context 1
  match bytes with
  | [value] => pure value.toNat
  | _ => failAt .truncatedInput context "byte reader received an empty result"

/-- A word of so many octets, the least first. -/
def readWord (context : String) (width : Nat) : WireDecoder Nat := do
  let bytes ← takeBytes context width
  pure (ofLittleEndian bytes)

def readWord16 (context : String) : WireDecoder Nat := readWord context 2

def readWord32 (context : String) : WireDecoder Nat := readWord context 4

def readWord64 (context : String) : WireDecoder Nat := readWord context 8

def decodeBlockId (context : String) : WireDecoder Nat := readWord32 context

def decodeBool (context : String) : WireDecoder Bool := do
  let value ← readWord8 context
  match value with
  | 0 => pure false
  | 1 => pure true
  | value => failAt .invalidBoolean context ("invalid boolean byte " ++ toString value)

def decodeVectorWithMaximum {α : Type} (context : String) (maximumCount : Int) (parser : WireDecoder α) :
    WireDecoder (List α) := do
  let rawCount ← readWord32 context
  require (rawCount ≤ maximumCount) .limitExceeded context
    ("count " ++ toString rawCount ++ " exceeds limit " ++ toString maximumCount)
  Decoder.many rawCount parser

def decodeCodePoint (context : String) : WireDecoder Char := do
  let value ← readWord32 context
  require (value ≤ 0x10ffff && !(value ≥ 0xd800 && value ≤ 0xdfff)) .invalidCodePoint context
    "wire text contains a non-scalar Unicode code point"
  pure (Char.ofNat value)

def decodeText (limits : WireLimits) (context : String) : WireDecoder String := do
  let count ← readWord32 (context ++ " length")
  require (count ≤ limits.maximumStringCodePoints) .limitExceeded context
    "text exceeds configured code point limit"
  let characters ← Decoder.many count (decodeCodePoint context)
  pure (String.ofList characters)

def decodeInteger (limits : WireLimits) : WireDecoder Int := do
  let negative ← decodeBool "integer sign"
  let count ← readWord32 "integer magnitude length"
  require (count ≤ limits.maximumNumericBytes) .limitExceeded "integer magnitude"
    "integer magnitude exceeds configured byte limit"
  let magnitude ← takeBytes "integer magnitude" count
  require (canonicalMagnitude magnitude) .invalidInteger "integer magnitude"
    "integer magnitude is not canonical"
  require (!negative || !magnitude.isEmpty) .invalidInteger "integer sign"
    "zero cannot have a negative sign"
  let value : Int := magnitude.foldl (fun result octet => result * 256 + octet.toNat) 0
  pure (if negative then -value else value)

def decodeAscii (limits : WireLimits) (context : String) : WireDecoder String := do
  let count ← readWord32 (context ++ " length")
  require (count ≤ limits.maximumNumericBytes) .limitExceeded context
    "numeric spelling exceeds configured byte limit"
  let bytes ← takeBytes context count
  require (bytes.all fun octet => octet.toNat ≤ 0x7f) .invalidInteger context
    "numeric spelling must contain ASCII characters only"
  pure (String.ofList (bytes.map fun octet => Char.ofNat octet.toNat))

def decodeResolvedName (limits : WireLimits) (context : String) : WireDecoder ResolvedName := do
  let raw ← readWord64 context
  require (raw > 0) .invalidSymbol context "symbol id must be positive"
  require (raw ≤ 2 ^ 63 - 1) .invalidSymbol context "symbol id exceeds host Int range"
  let spelling ← decodeText limits (context ++ " spelling")
  pure ⟨raw, spelling⟩

def decodeQualifiedName (limits : WireLimits) : WireDecoder QualifiedName :=
  decodeVectorWithMaximum "qualified name part count" 65535 (decodeText limits "qualified name part")

def namedScalar (name : String) : Ty := .namedType [name] []

/-- The type that a tag stands for alone. -/
def taggedType : Nat → Option Ty
  | 0 => some unitType
  | 1 => some boolType
  | 2 => some intType
  | 3 => some (namedScalar "long")
  | 4 => some stringType
  | 8 => some (namedScalar "char")
  | 9 => some (namedScalar "byte")
  | 10 => some (namedScalar "short")
  | 11 => some (namedScalar "longint")
  | 12 => some (namedScalar "ubyte")
  | 13 => some (namedScalar "ushort")
  | 14 => some (namedScalar "ulong")
  | 15 => some (namedScalar "uint")
  | 16 => some (namedScalar "ulongint")
  | 17 => some (namedScalar "sfloat")
  | 18 => some (namedScalar "lfloat")
  | 19 => some (namedScalar "float")
  | 20 => some (namedScalar "double")
  | _ => none

/-- An argument of a template, its types by their own reader. -/
def decodeTemplateArgument (limits : WireLimits) (decodeNested : WireDecoder Ty) :
    WireDecoder TemplateArgument := do
  let tag ← readWord8 "template argument tag"
  match tag with
  | 0 => do
      let valueType ← decodeNested
      pure (.typeTemplateArgument valueType)
  | 1 => do
      let value ← decodeInteger limits
      pure (.valueTemplateArgument (.integerTemplateValue value))
  | 2 => do
      let value ← decodeBool "template boolean value"
      pure (.valueTemplateArgument (.booleanTemplateValue value))
  | 3 => do
      let value ← decodeInteger limits
      pure (.valueTemplateArgument (.characterTemplateValue value))
  | 4 => do
      let name ← decodeResolvedName limits "template value parameter"
      pure (.valueTemplateArgument (.templateValueParameter name))
  | tag => invalidTag "template argument tag" tag

/-- With `strict`, a named type may not be one that has a tag of its own. -/
def decodeTypeAt (limits : WireLimits) (strict : Bool) : Nat → WireDecoder Ty
  | 0 => failAt .limitExceeded "type" "type nesting exceeds configured limit"
  | levels + 1 => do
      let tag ← readWord8 "type tag"
      match tag with
      | 5 => do
          let parameters ← decodeVectorWithMaximum "function type parameter count" 65535
            (decodeTypeAt limits strict levels)
          let result ← decodeTypeAt limits strict levels
          pure (.functionType parameters result)
      | 6 => do
          let name ← decodeQualifiedName limits
          let arguments ← decodeVectorWithMaximum "template argument count" 65535
            (decodeTemplateArgument limits (decodeTypeAt limits strict levels))
          require (!(strict && (primitiveTypeTag (.namedType name arguments)).isSome)) .invalidTag "type tag"
            "type has a tag of its own"
          pure (.namedType name arguments)
      | 7 => do
          let name ← decodeResolvedName limits "type variable symbol"
          pure (.typeVariable name)
      | tag =>
          match taggedType tag with
          | some valueType => pure valueType
          | none => invalidTag "type tag" tag

/-- How many levels of types the limit leaves from a depth on. -/
def typeLevels (limits : WireLimits) (depth : Int) : Nat := (limits.maximumTypeDepth + 1 - depth).toNat

/-! ### Literals and atoms -/

def typeName : Ty → String
  | .namedType [name] [] => name
  | _ => ""

def integerTypeNames : List String :=
  ["byte", "short", "long", "int", "longint", "ubyte", "ushort", "ulong", "uint", "ulongint"]

def floatingTypeNames : List String := ["sfloat", "lfloat", "float", "double"]

/-- The types that the reader admits a null of. -/
def referenceLike : Ty → Bool
  | .functionType _ _ => true
  | .namedType name arguments =>
      !(integerTypeNames ++ floatingTypeNames ++ ["char", "bool", "unit"]).contains
        (typeName (.namedType name arguments))
  | _ => false

/-- Whether a literal of the given tag may have the type. -/
def literalAdmitted (valueType : Ty) : Nat → Bool
  | 0 => valueType = unitType
  | 1 => valueType = boolType
  | 2 => typeName valueType = "char" || integerTypeNames.contains (typeName valueType)
  | 3 => valueType = stringType
  | 4 => floatingTypeNames.contains (typeName valueType)
  | 5 => referenceLike valueType
  | _ => false

def decodeLiteral (limits : WireLimits) (valueType : Ty) : WireDecoder CoreLiteral := do
  let tag ← readWord8 "literal tag"
  require (literalAdmitted valueType tag) .unsupportedType "literal"
    "literal tag does not match its declared type"
  match tag with
  | 0 => pure .coreUnit
  | 1 => do
      let value ← decodeBool "boolean literal"
      pure (.coreBoolean value)
  | 2 => do
      let value ← decodeInteger limits
      pure (.coreInteger value)
  | 3 => do
      let value ← decodeText limits "string literal"
      pure (.coreString value)
  | 4 => do
      let spelling ← decodeAscii limits "floating literal"
      pure (.coreFloating spelling)
  | _ => pure .coreNull

def tagPrimitive : Nat → Option CorePrimitive
  | 2 => some .coreAdd
  | 3 => some .coreSubtract
  | 4 => some .coreMultiply
  | 5 => some .coreDivide
  | 6 => some .coreFloorDivide
  | 7 => some .coreRemainder
  | 8 => some .coreLessThan
  | 9 => some .coreLessEqual
  | 10 => some .coreGreaterThan
  | 11 => some .coreGreaterEqual
  | 12 => some .coreEqual
  | 13 => some .coreNotEqual
  | 14 => some .coreLogicalAnd
  | 15 => some .coreLogicalOr
  | 16 => some .coreNegate
  | 17 => some .coreLogicalNot
  | 19 => some .corePower
  | 20 => some .coreShiftLeft
  | 21 => some .coreShiftRight
  | 22 => some .coreBitwiseAnd
  | 23 => some .coreBitwiseXor
  | 24 => some .coreBitwiseOr
  | 25 => some .coreBitwiseNot
  | 26 => some .coreTypeIs
  | 27 => some .coreMemoize
  | 28 => some .coreRuntimeCall
  | _ => none

def decodeCaptureMode (tag : Nat) : WireDecoder CaptureMode :=
  match tag with
  | 0 => pure .strongCapture
  | 1 => pure .weakCapture
  | 2 => pure .unownedCapture
  | tag => invalidTag "capture mode" tag

/-- The operation of a tag that is followed by operands. -/
def operationOf (tag : Nat) (atoms : List CorePrepAtom) : WireDecoder CorePrepOperation :=
  match tag with
  | 0 =>
      match atoms with
      | [atom] => pure (.corePrepCopy atom)
      | _ => invalidArity "copy" 1 atoms.length
  | 1 =>
      match atoms with
      | callee :: arguments => pure (.corePrepCall callee arguments)
      | [] => invalidArity "call" 1 0
  | tag =>
      match tagPrimitive tag with
      | some primitive => pure (.corePrepPrimitive primitive atoms)
      | none => invalidTag "operation tag" tag

/-! ### Functions and modules -/

section Decode

variable (limits : WireLimits) (strict : Bool)

def decodeType : WireDecoder Ty := decodeTypeAt limits strict (typeLevels limits 0)

def decodeAtom : WireDecoder CorePrepAtom := do
  let tag ← readWord8 "atom tag"
  let valueType ← decodeType limits strict
  match tag with
  | 0 => do
      let name ← decodeResolvedName limits "variable symbol"
      pure (.corePrepVariable name valueType)
  | 1 => do
      let literal ← decodeLiteral limits valueType
      pure (.corePrepLiteral literal valueType)
  | tag => invalidTag "atom tag" tag

def decodeCapture : WireDecoder CorePrepCapture := do
  let tag ← readWord8 "capture mode"
  let mode ← decodeCaptureMode tag
  let name ← decodeResolvedName limits "capture symbol"
  let valueType ← decodeType limits strict
  let atom ← decodeAtom limits strict
  pure ⟨mode, name, valueType, atom⟩

def decodeOperation : WireDecoder CorePrepOperation := do
  let tag ← readWord8 "operation tag"
  if tag = 18 then do
    let function ← decodeResolvedName limits "closure function symbol"
    let captures ← decodeVectorWithMaximum "closure capture count" limits.maximumOperandsPerInstruction
      (decodeCapture limits strict)
    pure (.corePrepMakeClosure function captures)
  else do
    let atoms ← decodeVectorWithMaximum "operand count" limits.maximumOperandsPerInstruction
      (decodeAtom limits strict)
    operationOf tag atoms

def decodeInstruction : WireDecoder CorePrepInstruction := do
  let tag ← readWord8 "instruction tag"
  match tag with
  | 0 => do
      let name ← decodeResolvedName limits "binding symbol"
      let valueType ← decodeType limits strict
      let «mutable» ← decodeBool "binding mutability"
      let operation ← decodeOperation limits strict
      pure (.corePrepBind name valueType «mutable» operation)
  | 1 => do
      let name ← decodeResolvedName limits "assignment symbol"
      let atom ← decodeAtom limits strict
      pure (.corePrepAssign name atom)
  | 2 => do
      let operation ← decodeOperation limits strict
      pure (.corePrepEvaluate operation)
  | tag => invalidTag "instruction tag" tag

def decodeTerminator : WireDecoder CorePrepTerminator := do
  let tag ← readWord8 "terminator tag"
  match tag with
  | 0 => do
      let atom ← decodeAtom limits strict
      pure (.corePrepReturn atom)
  | 1 => do
      let atom ← decodeAtom limits strict
      let trueTarget ← decodeBlockId "true target"
      let falseTarget ← decodeBlockId "false target"
      pure (.corePrepBranch atom trueTarget falseTarget)
  | 2 => do
      let target ← decodeBlockId "jump target"
      pure (.corePrepJump target)
  | 3 => pure .corePrepUnreachable
  | tag => invalidTag "terminator tag" tag

def decodeBlock : WireDecoder CorePrepBlock := do
  let identifier ← decodeBlockId "block id"
  let instructions ← decodeVectorWithMaximum "instruction count" limits.maximumInstructionsPerBlock
    (decodeInstruction limits strict)
  let terminator ← decodeTerminator limits strict
  pure ⟨identifier, instructions, terminator⟩

def decodeParameter : WireDecoder (ResolvedName × Ty) := do
  let name ← decodeResolvedName limits "parameter symbol"
  let valueType ← decodeType limits strict
  pure (name, valueType)

def decodeFunction : WireDecoder CorePrepFunction := do
  let name ← decodeResolvedName limits "function symbol"
  let source ← decodeText limits "function source file"
  let parameters ← decodeVectorWithMaximum "parameter count" limits.maximumParametersPerFunction
    (decodeParameter limits strict)
  let result ← decodeType limits strict
  let entry ← decodeBlockId "entry block"
  let blocks ← decodeVectorWithMaximum "block count" limits.maximumBlocksPerFunction
    (decodeBlock limits strict)
  pure ⟨name, source, parameters, result, entry, blocks⟩

def decodeModule : WireDecoder CorePrepModule := do
  let name ← decodeQualifiedName limits
  let sources ← decodeVectorWithMaximum "source file count" limits.maximumFunctions
    (decodeText limits "source file")
  let functions ← decodeVectorWithMaximum "function count" limits.maximumFunctions
    (decodeFunction limits strict)
  pure ⟨name, functions, sources⟩

def decodeDocument : WireDecoder CorePrepModule := do
  let magic ← takeBytes "magic" 4
  require (magic = wireMagic) .invalidMagic "magic" "input is not a Tala CorePrep wire document"
  let version ← readWord16 "version"
  require (version = currentWireVersion) .unsupportedVersion "version"
    ("unsupported CorePrep wire version " ++ toString version)
  let flags ← readWord16 "flags"
  require (flags = 0) .invalidTag "flags" "reserved wire flags must be zero"
  decodeModule limits strict

/-- The whole input is one document. -/
def readDocument (bytes : Bytes) : Except WireError CorePrepModule :=
  if bytes.length > limits.maximumWireBytes then
    failure .limitExceeded "wire byte length" "input exceeds configured byte limit"
  else do
    let (moduleValue, final) ← decodeDocument limits strict ⟨bytes, 0⟩
    if final.rest.isEmpty then .ok moduleValue
    else .error ⟨.trailingInput, final.offset, "document", "bytes remain after CorePrep module"⟩

/-- Decode using caller-selected limits and reject incomplete or trailing data. -/
def decodeCorePrepWith (bytes : Bytes) : Except WireError CorePrepModule := readDocument limits false bytes

end Decode

/-- Decode using the standard finite wire limits. -/
def decodeCorePrep (bytes : Bytes) : Except WireError CorePrepModule := decodeCorePrepWith defaultWireLimits bytes

/-- The document gives every type that has a tag of its own by that tag. -/
def SpellsTypesByTag (bytes : Bytes) : Prop :=
  ∃ moduleValue, readDocument defaultWireLimits true bytes = .ok moduleValue

end Tala.CorePrep.Wire
