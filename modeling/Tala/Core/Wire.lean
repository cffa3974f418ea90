import Tala.Core.IR
import Tala.Library.Codec
import Tala.Library.SortedMap

/-!
# `Core.Wire` — the binary form of Core modules

`encodeCore` writes a module as octets and `decodeCore` reads it back, both under `CoreWireLimits`. Tags
and counts come before what they describe, words have their least octet first, and the magnitude of an
integer has its greatest octet first.

The decoders of expressions and statements recurse as deep as the input is long; they take the number of
octets as fuel. With no fuel there is no input left.
-/

namespace Tala.Core.Wire

open Tala Tala.Core Tala.Library Tala.Library.Codec

/-- Schema version emitted by the current Core writer. -/
def currentCoreWireVersion : Nat := 10

/-- Finite bounds for total bytes, recursion, and individual collections. -/
structure CoreWireLimits where
  maximumCoreWireBytes : Int
  maximumCoreTextScalars : Int
  maximumCoreFunctions : Int
  maximumCoreParameters : Int
  maximumCoreStatements : Int
  maximumCoreOperands : Int
  maximumCoreTypeDepth : Int
  maximumCoreExpressionDepth : Int
  maximumCoreNumericBytes : Int

def defaultCoreWireLimits : CoreWireLimits where
  maximumCoreWireBytes := 64 * 1024 * 1024
  maximumCoreTextScalars := 1024 * 1024
  maximumCoreFunctions := 65535
  maximumCoreParameters := 65535
  maximumCoreStatements := 1048576
  maximumCoreOperands := 65535
  maximumCoreTypeDepth := 128
  maximumCoreExpressionDepth := 4096
  maximumCoreNumericBytes := 4096

/-- Category of malformed input, unsupported schema data, or exceeded limit. -/
inductive CoreWireErrorKind
  | coreInvalidMagic | coreUnsupportedVersion | coreTruncatedInput | coreTrailingInput
  | coreInvalidTag | coreInvalidBoolean | coreInvalidScalar | coreInvalidCount | coreInvalidSymbol
  | coreInvalidInteger | coreUnsupportedType | coreLimitExceeded
deriving DecidableEq, Repr

structure CoreWireError where
  coreWireErrorKind : CoreWireErrorKind
  coreWireErrorOffset : Int
  coreWireErrorContext : String
  coreWireErrorMessage : String
deriving DecidableEq, Repr

abbrev Bytes := List UInt8

abbrev Encoder := Except CoreWireError Bytes

abbrev CoreDecoder (α : Type) := Decoder UInt8 CoreWireError α

/-! ## Tags -/

def magic : Bytes := "TACR".toList.map fun character => UInt8.ofNat character.toNat

/-- Tags of the scalar types that are not among the first four. -/
def scalarTags : List (String × UInt8) :=
  [ ("char", 7)
  , ("byte", 8)
  , ("short", 9)
  , ("long", 10)
  , ("longint", 11)
  , ("ubyte", 12)
  , ("ushort", 13)
  , ("ulong", 14)
  , ("uint", 15)
  , ("ulongint", 16)
  , ("sfloat", 17)
  , ("lfloat", 18)
  , ("float", 19)
  , ("double", 20) ]

def scalarTypeTag : Ty → Option UInt8
  | .namedType [name] [] => scalarTags.lookup name
  | _ => none

/-- Primitives in the order of their tags. -/
def primitives : List CorePrimitive :=
  [ .coreAdd, .coreSubtract, .coreMultiply, .coreDivide, .coreFloorDivide, .coreRemainder
  , .coreLessThan, .coreLessEqual, .coreGreaterThan, .coreGreaterEqual, .coreEqual, .coreNotEqual
  , .coreLogicalAnd, .coreLogicalOr, .coreNegate, .coreLogicalNot, .corePower
  , .coreShiftLeft, .coreShiftRight, .coreBitwiseAnd, .coreBitwiseXor, .coreBitwiseOr, .coreBitwiseNot
  , .coreTypeIs, .coreMemoize, .coreRuntimeCall ]

def primitiveTag (primitive : CorePrimitive) : UInt8 := UInt8.ofNat (primitives.idxOf primitive)

def captureModeTag : CaptureMode → UInt8
  | .strongCapture => 0
  | .weakCapture => 1
  | .unownedCapture => 2

/-! ## Encoding -/

def failure {α : Type} (kind : CoreWireErrorKind) (context message : String) : Except CoreWireError α :=
  .error ⟨kind, 0, context, message⟩

def byte (value amount : Nat) : UInt8 := UInt8.ofNat (value >>> amount)

def word16 (value : Nat) : Bytes := [byte value 0, byte value 8]

def word32 (value : Nat) : Bytes := [byte value 0, byte value 8, byte value 16, byte value 24]

def word64 (value : Nat) : Bytes :=
  [byte value 0, byte value 8, byte value 16, byte value 24, byte value 32, byte value 40, byte value 48,
    byte value 56]

def encodeBool (value : Bool) : Bytes := [if value then 1 else 0]

def requireEncode (context : String) (maximumValue : Int) (actual : Nat) : Except CoreWireError Unit :=
  if actual > maximumValue then
    failure .coreLimitExceeded context ("count exceeds configured limit: " ++ toString actual)
  else .ok ()

/-- A vector: its count, and the encodings of its elements. -/
def encodeVector (context : String) (maximumValue : Int) (count : Nat) (elements : Encoder) : Encoder := do
  requireEncode context maximumValue count
  let encoded ← elements
  .ok (word32 count ++ encoded)

def encodeScalar (context : String) (character : Char) : Encoder :=
  let code := character.toNat
  if code ≥ 0xd800 && code ≤ 0xdfff then
    failure .coreInvalidScalar context "surrogate is not a Unicode scalar"
  else if code > 0x10ffff then failure .coreInvalidScalar context "code point exceeds Unicode range"
  else .ok (word32 code)

def encodeText (limits : CoreWireLimits) (context value : String) : Encoder :=
  encodeVector context limits.maximumCoreTextScalars value.toList.length
    (encodeAll (encodeScalar context) value.toList)

def integerMagnitude (value : Nat) : Bytes := (octets value).reverse

def encodeInteger (limits : CoreWireLimits) (value : Int) : Encoder := do
  let magnitude := integerMagnitude value.natAbs
  requireEncode "integer magnitude" limits.maximumCoreNumericBytes magnitude.length
  .ok (encodeBool (value < 0) ++ (word32 magnitude.length ++ magnitude))

def encodeAsciiCharacter (context : String) (character : Char) : Encoder :=
  if character.toNat ≤ 0x7f then .ok [UInt8.ofNat character.toNat]
  else failure .coreInvalidInteger context "numeric spelling must contain ASCII characters only"

def encodeAscii (limits : CoreWireLimits) (context value : String) : Encoder := do
  requireEncode context limits.maximumCoreNumericBytes value.toList.length
  let characters ← encodeAll (encodeAsciiCharacter context) value.toList
  .ok (word32 value.toList.length ++ characters)

def encodeResolvedName (limits : CoreWireLimits) (context : String) (name : ResolvedName) : Encoder :=
  if name.resolvedSymbol ≤ 0 then failure .coreInvalidSymbol context "symbol id must be positive"
  else do
    let spelling ← encodeText limits (context ++ " spelling") name.resolvedSpelling
    .ok (word64 name.resolvedSymbol.toNat ++ spelling)

def encodeQualifiedName (limits : CoreWireLimits) (name : QualifiedName) : Encoder :=
  encodeVector "qualified name parts" 65535 name.length
    (encodeAll (encodeText limits "qualified name part") name)

def encodeTemplateValue (limits : CoreWireLimits) : TemplateValue → Encoder
  | .integerTemplateValue integer => do
      let encoded ← encodeInteger limits integer
      .ok (1 :: encoded)
  | .booleanTemplateValue boolean => .ok [2, if boolean then 1 else 0]
  | .characterTemplateValue scalar => do
      let encoded ← encodeInteger limits scalar
      .ok (3 :: encoded)
  | .templateValueParameter name => do
      let encoded ← encodeResolvedName limits "template value parameter" name
      .ok (4 :: encoded)

mutual

def encodeType (limits : CoreWireLimits) (depth : Int) (valueType : Ty) : Encoder :=
  if depth > limits.maximumCoreTypeDepth then
    failure .coreLimitExceeded "type" "type nesting exceeds limit"
  else if valueType = unitType then .ok [0]
  else if valueType = boolType then .ok [1]
  else if valueType = intType then .ok [2]
  else if valueType = stringType then .ok [3]
  else
    match scalarTypeTag valueType with
    | some scalarTag => .ok [scalarTag]
    | none =>
        match valueType with
        | .namedType name arguments => do
            let encodedName ← encodeQualifiedName limits name
            let encodedArguments ← encodeVector "type argument count" limits.maximumCoreOperands
              arguments.length (encodeTemplateArguments limits (depth + 1) arguments)
            .ok (4 :: (encodedName ++ encodedArguments))
        | .functionType parameters result => do
            let encodedParameters ← encodeVector "function type parameter count"
              limits.maximumCoreParameters parameters.length (encodeTypes limits (depth + 1) parameters)
            let encodedResult ← encodeType limits (depth + 1) result
            .ok (5 :: (encodedParameters ++ encodedResult))
        | .typeVariable name => do
            let encodedName ← encodeResolvedName limits "type variable symbol" name
            .ok (6 :: encodedName)
        | .errorType =>
            failure .coreUnsupportedType "type" "ErrorType cannot cross the Core boundary"
termination_by structural valueType

def encodeTypes (limits : CoreWireLimits) (depth : Int) : List Ty → Encoder
  | [] => .ok []
  | valueType :: types => do
      let first ← encodeType limits depth valueType
      let others ← encodeTypes limits depth types
      .ok (first ++ others)
termination_by structural types => types

def encodeTemplateArgument (limits : CoreWireLimits) (depth : Int) : TemplateArgument → Encoder
  | .typeTemplateArgument valueType => do
      let encoded ← encodeType limits depth valueType
      .ok (0 :: encoded)
  | .valueTemplateArgument value => encodeTemplateValue limits value
termination_by structural argument => argument

def encodeTemplateArguments (limits : CoreWireLimits) (depth : Int) : List TemplateArgument → Encoder
  | [] => .ok []
  | argument :: arguments => do
      let first ← encodeTemplateArgument limits depth argument
      let others ← encodeTemplateArguments limits depth arguments
      .ok (first ++ others)
termination_by structural arguments => arguments

end

def encodeParameter (limits : CoreWireLimits) (parameter : ResolvedName × Ty) : Encoder := do
  let name ← encodeResolvedName limits "parameter symbol" parameter.1
  let valueType ← encodeType limits 0 parameter.2
  .ok (name ++ valueType)

def encodeLiteral (limits : CoreWireLimits) : CoreLiteral → Encoder
  | .coreUnit => .ok [0]
  | .coreBoolean value => .ok (1 :: encodeBool value)
  | .coreInteger value => do
      let encoded ← encodeInteger limits value
      .ok (4 :: encoded)
  | .coreFloating spelling => do
      let encoded ← encodeAscii limits "floating literal" spelling
      .ok (5 :: encoded)
  | .coreString value => do
      let encoded ← encodeText limits "string literal" value
      .ok (3 :: encoded)
  | .coreNull => .ok [6]

mutual

def encodeExpression (limits : CoreWireLimits) (depth : Int) (expression : CoreExpression) : Encoder :=
  if depth > limits.maximumCoreExpressionDepth then
    failure .coreLimitExceeded "expression" "expression nesting exceeds limit"
  else
    match expression with
    | .coreVariable name valueType => do
        let encodedType ← encodeType limits 0 valueType
        let encodedName ← encodeResolvedName limits "variable symbol" name
        .ok (0 :: (encodedType ++ encodedName))
    | .coreLiteral literal valueType => do
        let encodedType ← encodeType limits 0 valueType
        let encodedLiteral ← encodeLiteral limits literal
        .ok (1 :: (encodedType ++ encodedLiteral))
    | .coreApply callee arguments valueType => do
        let encodedType ← encodeType limits 0 valueType
        let encodedCallee ← encodeExpression limits (depth + 1) callee
        let encodedArguments ← encodeVector "call argument count" limits.maximumCoreOperands
          arguments.length (encodeExpressions limits (depth + 1) arguments)
        .ok (2 :: (encodedType ++ (encodedCallee ++ encodedArguments)))
    | .corePrimitive primitive arguments valueType => do
        let encodedType ← encodeType limits 0 valueType
        let encodedArguments ← encodeVector "primitive operand count" limits.maximumCoreOperands
          arguments.length (encodeOperands limits depth arguments)
        .ok (3 :: primitiveTag primitive :: (encodedType ++ encodedArguments))
    | .coreClosure captures parameters returnType body valueType => do
        let encodedType ← encodeType limits 0 valueType
        let encodedCaptures ← encodeVector "closure capture count" limits.maximumCoreOperands
          captures.length (encodeCoreCaptures limits depth captures)
        let encodedParameters ← encodeVector "closure parameter count" limits.maximumCoreParameters
          parameters.length (encodeAll (encodeParameter limits) parameters)
        let encodedReturn ← encodeType limits 0 returnType
        let encodedBody ← encodeVector "closure statement count" limits.maximumCoreStatements
          body.length (encodeStatements limits body)
        .ok (4 :: (encodedType ++ (encodedCaptures ++ (encodedParameters
          ++ (encodedReturn ++ encodedBody)))))
    | .coreLet name bindingType value body valueType => do
        let encodedType ← encodeType limits 0 valueType
        let encodedName ← encodeResolvedName limits "let symbol" name
        let encodedBindingType ← encodeType limits 0 bindingType
        let encodedValue ← encodeExpression limits (depth + 1) value
        let encodedBody ← encodeExpression limits (depth + 1) body
        .ok (5 :: (encodedType ++ (encodedName ++ (encodedBindingType ++ (encodedValue ++ encodedBody)))))
    | .coreConditional condition whenTrue whenFalse valueType => do
        let encodedType ← encodeType limits 0 valueType
        let encodedCondition ← encodeExpression limits (depth + 1) condition
        let encodedTrue ← encodeExpression limits (depth + 1) whenTrue
        let encodedFalse ← encodeExpression limits (depth + 1) whenFalse
        .ok (6 :: (encodedType ++ (encodedCondition ++ (encodedTrue ++ encodedFalse))))
termination_by structural expression

def encodeExpressions (limits : CoreWireLimits) (depth : Int) : List CoreExpression → Encoder
  | [] => .ok []
  | expression :: expressions => do
      let first ← encodeExpression limits depth expression
      let others ← encodeExpressions limits depth expressions
      .ok (first ++ others)
termination_by structural expressions => expressions

/-- The first operand of a primitive is at the depth of the primitive. -/
def encodeOperands (limits : CoreWireLimits) (depth : Int) : List CoreExpression → Encoder
  | [] => .ok []
  | expression :: expressions => do
      let first ← encodeExpression limits depth expression
      let others ← encodeExpressions limits (depth + 1) expressions
      .ok (first ++ others)
termination_by structural expressions => expressions

def encodeCoreCapture (limits : CoreWireLimits) (depth : Int) : CoreCapture → Encoder
  | .coreCapture mode name type value => do
      let encodedName ← encodeResolvedName limits "closure capture symbol" name
      let encodedType ← encodeType limits 0 type
      let encodedValue ← encodeExpression limits (depth + 1) value
      .ok (captureModeTag mode :: (encodedName ++ (encodedType ++ encodedValue)))
termination_by structural capture => capture

def encodeCoreCaptures (limits : CoreWireLimits) (depth : Int) : List CoreCapture → Encoder
  | [] => .ok []
  | capture :: captures => do
      let first ← encodeCoreCapture limits depth capture
      let others ← encodeCoreCaptures limits depth captures
      .ok (first ++ others)
termination_by structural captures => captures

def encodeStatement (limits : CoreWireLimits) : CoreStatement → Encoder
  | .coreBind name type «mutable» value => do
      let encodedName ← encodeResolvedName limits "binding symbol" name
      let encodedType ← encodeType limits 0 type
      let encodedValue ← encodeExpression limits 0 value
      .ok (0 :: (encodedName ++ (encodedType ++ (encodeBool «mutable» ++ encodedValue))))
  | .coreAssign name expression => do
      let encodedName ← encodeResolvedName limits "assignment symbol" name
      let encodedValue ← encodeExpression limits 0 expression
      .ok (1 :: (encodedName ++ encodedValue))
  | .coreReturn expression => do
      let encodedValue ← encodeExpression limits 0 expression
      .ok (2 :: encodedValue)
  | .coreIf condition trueBranch falseBranch => do
      let encodedCondition ← encodeExpression limits 0 condition
      let encodedTrue ← encodeVector "true branch statement count" limits.maximumCoreStatements
        trueBranch.length (encodeStatements limits trueBranch)
      let encodedFalse ← encodeVector "false branch statement count" limits.maximumCoreStatements
        falseBranch.length (encodeStatements limits falseBranch)
      .ok (3 :: (encodedCondition ++ (encodedTrue ++ encodedFalse)))
  | .coreEvaluate expression => do
      let encodedValue ← encodeExpression limits 0 expression
      .ok (4 :: encodedValue)
  | .coreWhile condition body => do
      let encodedCondition ← encodeExpression limits 0 condition
      let encodedBody ← encodeVector "while body statement count" limits.maximumCoreStatements
        body.length (encodeStatements limits body)
      .ok (5 :: (encodedCondition ++ encodedBody))
  | .coreDoWhile body condition => do
      let encodedBody ← encodeVector "do/while body statement count" limits.maximumCoreStatements
        body.length (encodeStatements limits body)
      let encodedCondition ← encodeExpression limits 0 condition
      .ok (6 :: (encodedBody ++ encodedCondition))
  | .coreFor condition body update => do
      let encodedCondition ← encodeExpression limits 0 condition
      let encodedBody ← encodeVector "for body statement count" limits.maximumCoreStatements
        body.length (encodeStatements limits body)
      let encodedUpdate ← encodeVector "for update statement count" limits.maximumCoreStatements
        update.length (encodeStatements limits update)
      .ok (7 :: (encodedCondition ++ (encodedBody ++ encodedUpdate)))
  | .coreBreak => .ok [8]
  | .coreContinue => .ok [9]
termination_by structural statement => statement

def encodeStatements (limits : CoreWireLimits) : List CoreStatement → Encoder
  | [] => .ok []
  | statement :: statements => do
      let first ← encodeStatement limits statement
      let others ← encodeStatements limits statements
      .ok (first ++ others)
termination_by structural statements => statements

end

/-- The source file that a function is written with: the one its symbol is mapped to, or none. -/
def sourceOf (owners : SortedMap Int String) (function : CoreFunction) : String :=
  (owners.find function.symbol).getD ""

def encodeFunction (limits : CoreWireLimits) (owners : SortedMap Int String) (function : CoreFunction) :
    Encoder := do
  let name ← encodeResolvedName limits "function symbol" function.coreFunctionName
  let source ← encodeText limits "function source file" (sourceOf owners function)
  let parameters ← encodeVector "parameter count" limits.maximumCoreParameters
    function.coreFunctionParameters.length
    (encodeAll (encodeParameter limits) function.coreFunctionParameters)
  let result ← encodeType limits 0 function.coreFunctionReturnType
  let body ← encodeVector "statement count" limits.maximumCoreStatements
    function.coreFunctionBody.length (encodeStatements limits function.coreFunctionBody)
  .ok (name ++ (source ++ (parameters ++ (result ++ body))))

def encodeModule (limits : CoreWireLimits) (moduleValue : CoreModule) : Encoder := do
  let name ← encodeQualifiedName limits moduleValue.coreModuleName
  let sources ← encodeVector "source file count" limits.maximumCoreFunctions
    moduleValue.coreModuleSourceFiles.length
    (encodeAll (encodeText limits "source file") moduleValue.coreModuleSourceFiles)
  let owners := SortedMap.ofList moduleValue.coreModuleFunctionSources
  let functions ← encodeVector "function count" limits.maximumCoreFunctions
    moduleValue.coreModuleFunctions.length
    (encodeAll (encodeFunction limits owners) moduleValue.coreModuleFunctions)
  .ok (name ++ (sources ++ functions))

/-- Encode one Core module under explicit resource limits. -/
def encodeCore (limits : CoreWireLimits) (moduleValue : CoreModule) : Except CoreWireError Bytes := do
  let payload ← encodeModule limits moduleValue
  let output := magic ++ (word16 currentCoreWireVersion ++ (word16 0 ++ payload))
  requireEncode "wire byte length" limits.maximumCoreWireBytes output.length
  .ok output

/-! ## Decoding -/

def failDecode {α : Type} (kind : CoreWireErrorKind) (context message : String) : CoreDecoder α :=
  Decoder.fail fun offset => ⟨kind, offset, context, message⟩

def requireDecode (condition : Bool) (kind : CoreWireErrorKind) (context message : String) :
    CoreDecoder Unit :=
  Decoder.require condition fun offset => ⟨kind, offset, context, message⟩

def invalidTag {α : Type} (context : String) (tag : Nat) : CoreDecoder α :=
  failDecode .coreInvalidTag context ("unknown tag " ++ toString tag)

def takeBytes (context : String) (count : Nat) : CoreDecoder Bytes :=
  Decoder.take count fun offset =>
    ⟨.coreTruncatedInput, offset, context, "input ended before field was complete"⟩

/-- A word of so many octets, the least first. -/
def readWord (context : String) (width : Nat) : CoreDecoder Nat := do
  let bytes ← takeBytes context width
  pure (ofLittleEndian bytes)

def readWord8 (context : String) : CoreDecoder Nat := readWord context 1

def readWord16 (context : String) : CoreDecoder Nat := readWord context 2

def readWord32 (context : String) : CoreDecoder Nat := readWord context 4

def readWord64 (context : String) : CoreDecoder Nat := readWord context 8

def decodeBool (context : String) : CoreDecoder Bool := do
  let value ← readWord8 context
  match value with
  | 0 => pure false
  | 1 => pure true
  | _ => failDecode .coreInvalidBoolean context "invalid boolean byte"

def decodeVectorMaximum {α : Type} (context : String) (maximumValue : Int) (decoder : CoreDecoder α) :
    CoreDecoder (List α) := do
  let count ← readWord32 context
  requireDecode (count ≤ maximumValue) .coreLimitExceeded context "count exceeds configured limit"
  Decoder.many count decoder

def decodeScalar (context : String) : CoreDecoder Char := do
  let value ← readWord32 context
  requireDecode (value ≤ 0x10ffff && !(value ≥ 0xd800 && value ≤ 0xdfff)) .coreInvalidScalar context
    "invalid Unicode scalar"
  pure (Char.ofNat value)

def decodeText (limits : CoreWireLimits) (context : String) : CoreDecoder String := do
  let count ← readWord32 (context ++ " length")
  requireDecode (count ≤ limits.maximumCoreTextScalars) .coreLimitExceeded context
    "text exceeds configured limit"
  let characters ← Decoder.many count (decodeScalar context)
  pure (String.ofList characters)

/-- A magnitude does not start with a zero octet. -/
def canonicalMagnitude : Bytes → Bool
  | [] => true
  | first :: _ => first ≠ 0

def decodeInteger (limits : CoreWireLimits) : CoreDecoder Int := do
  let negative ← decodeBool "integer sign"
  let count ← readWord32 "integer magnitude length"
  requireDecode (count ≤ limits.maximumCoreNumericBytes) .coreLimitExceeded "integer magnitude"
    "integer magnitude exceeds configured limit"
  let magnitude ← takeBytes "integer magnitude" count
  requireDecode (canonicalMagnitude magnitude) .coreInvalidInteger "integer magnitude"
    "integer magnitude is not canonical"
  requireDecode (!negative || !magnitude.isEmpty) .coreInvalidInteger "integer sign"
    "zero cannot have a negative sign"
  let value : Int := magnitude.foldl (fun result octet => result * 256 + octet.toNat) 0
  pure (if negative then -value else value)

def decodeAscii (limits : CoreWireLimits) (context : String) : CoreDecoder String := do
  let count ← readWord32 (context ++ " length")
  requireDecode (count ≤ limits.maximumCoreNumericBytes) .coreLimitExceeded context
    "numeric spelling exceeds configured limit"
  let bytes ← takeBytes context count
  requireDecode (bytes.all fun octet => octet.toNat ≤ 0x7f) .coreInvalidInteger context
    "numeric spelling must contain ASCII characters only"
  pure (String.ofList (bytes.map fun octet => Char.ofNat octet.toNat))

def decodeResolvedName (limits : CoreWireLimits) (context : String) : CoreDecoder ResolvedName := do
  let raw ← readWord64 context
  requireDecode (raw > 0 && raw ≤ 2 ^ 63 - 1) .coreInvalidSymbol context "invalid symbol id"
  let spelling ← decodeText limits (context ++ " spelling")
  pure ⟨raw, spelling⟩

def decodeQualifiedName (limits : CoreWireLimits) : CoreDecoder QualifiedName :=
  decodeVectorMaximum "qualified name parts" 65535 (decodeText limits "qualified name part")

/-- The two's complement reading of a word of 64 bits. -/
def toInt64 (value : Nat) : Int := if value < 2 ^ 63 then value else (value : Int) - 2 ^ 64

def decodeLiteral (limits : CoreWireLimits) : CoreDecoder CoreLiteral := do
  let tag ← readWord8 "literal tag"
  match tag with
  | 0 => pure .coreUnit
  | 1 => do
      let value ← decodeBool "boolean literal"
      pure (.coreBoolean value)
  | 2 => do
      let value ← readWord64 "integer literal"
      pure (.coreInteger (toInt64 value))
  | 3 => do
      let value ← decodeText limits "string literal"
      pure (.coreString value)
  | 4 => do
      let value ← decodeInteger limits
      pure (.coreInteger value)
  | 5 => do
      let spelling ← decodeAscii limits "floating literal"
      pure (.coreFloating spelling)
  | 6 => pure .coreNull
  | tag => invalidTag "literal tag" tag

/-- Reading a tag when no input is left. -/
def endOfInput {α : Type} (context : String) : CoreDecoder α := do
  let tag ← readWord8 context
  invalidTag context tag

def typeNesting (limits : CoreWireLimits) (depth : Int) : CoreDecoder Unit :=
  requireDecode (depth ≤ limits.maximumCoreTypeDepth) .coreLimitExceeded "type"
    "type nesting exceeds limit"

mutual

def decodeType (limits : CoreWireLimits) : Nat → Int → CoreDecoder Ty
  | 0, depth => do
      typeNesting limits depth
      endOfInput "type tag"
  | fuel + 1, depth => do
      typeNesting limits depth
      let tag ← readWord8 "type tag"
      match tag with
      | 0 => pure unitType
      | 1 => pure boolType
      | 2 => pure intType
      | 3 => pure stringType
      | 4 => do
          let name ← decodeQualifiedName limits
          let arguments ← decodeVectorMaximum "template argument count" limits.maximumCoreOperands
            (decodeTemplateArgument limits fuel (depth + 1))
          pure (.namedType name arguments)
      | 5 => do
          let parameters ← decodeVectorMaximum "function type parameter count"
            limits.maximumCoreParameters (decodeType limits fuel (depth + 1))
          let result ← decodeType limits fuel (depth + 1)
          pure (.functionType parameters result)
      | 6 => do
          let name ← decodeResolvedName limits "type variable symbol"
          pure (.typeVariable name)
      | tag =>
          match scalarTags.find? (fun row => row.2.toNat = tag) with
          | some row => pure (namedType row.1)
          | none => invalidTag "type tag" tag
termination_by structural fuel => fuel

def decodeTemplateArgument (limits : CoreWireLimits) : Nat → Int → CoreDecoder TemplateArgument
  | 0, _ => endOfInput "template argument tag"
  | fuel + 1, depth => do
      let tag ← readWord8 "template argument tag"
      match tag with
      | 0 => do
          let valueType ← decodeType limits fuel depth
          pure (.typeTemplateArgument valueType)
      | 1 => do
          let value ← decodeInteger limits
          pure (.valueTemplateArgument (.integerTemplateValue value))
      | 2 => do
          let value ← decodeBool "template boolean value"
          pure (.valueTemplateArgument (.booleanTemplateValue value))
      | 3 => do
          let value ← decodeInteger limits
          pure (.valueTemplateArgument (.characterTemplateValue value))
      | 4 => do
          let name ← decodeResolvedName limits "template value parameter"
          pure (.valueTemplateArgument (.templateValueParameter name))
      | tag => invalidTag "template argument tag" tag
termination_by structural fuel => fuel

end

def decodeParameter (limits : CoreWireLimits) (fuel : Nat) : CoreDecoder (ResolvedName × Ty) := do
  let name ← decodeResolvedName limits "parameter symbol"
  let valueType ← decodeType limits fuel 0
  pure (name, valueType)

def decodePrimitive (tag : Nat) : CoreDecoder CorePrimitive :=
  match primitives[tag]? with
  | some primitive => pure primitive
  | none => invalidTag "primitive tag" tag

def decodeCaptureMode (tag : Nat) : CoreDecoder CaptureMode :=
  match tag with
  | 0 => pure .strongCapture
  | 1 => pure .weakCapture
  | 2 => pure .unownedCapture
  | tag => invalidTag "closure capture mode" tag

def expressionNesting (limits : CoreWireLimits) (depth : Int) : CoreDecoder Unit :=
  requireDecode (depth ≤ limits.maximumCoreExpressionDepth) .coreLimitExceeded "expression"
    "expression nesting exceeds limit"

/-- So many operands, the first of them by its own decoder. -/
def decodeOperands (first others : CoreDecoder CoreExpression) : Nat → CoreDecoder (List CoreExpression)
  | 0 => pure []
  | count + 1 => do
      let operand ← first
      let operands ← Decoder.many count others
      pure (operand :: operands)

mutual

def decodeExpression (limits : CoreWireLimits) : Nat → Int → CoreDecoder CoreExpression
  | 0, depth => do
      expressionNesting limits depth
      endOfInput "expression tag"
  | fuel + 1, depth => do
      expressionNesting limits depth
      let tag ← readWord8 "expression tag"
      match tag with
      | 0 => do
          let valueType ← decodeType limits fuel 0
          let name ← decodeResolvedName limits "variable symbol"
          pure (.coreVariable name valueType)
      | 1 => do
          let valueType ← decodeType limits fuel 0
          let literal ← decodeLiteral limits
          pure (.coreLiteral literal valueType)
      | 2 => do
          let valueType ← decodeType limits fuel 0
          let callee ← decodeExpression limits fuel (depth + 1)
          let arguments ← decodeVectorMaximum "call argument count" limits.maximumCoreOperands
            (decodeExpression limits fuel (depth + 1))
          pure (.coreApply callee arguments valueType)
      | 3 => do
          let primitiveTag ← readWord8 "primitive tag"
          let primitive ← decodePrimitive primitiveTag
          let valueType ← decodeType limits fuel 0
          let count ← readWord32 "primitive operand count"
          requireDecode (count ≤ limits.maximumCoreOperands) .coreLimitExceeded
            "primitive operand count" "count exceeds configured limit"
          -- The first operand is at the depth of the primitive.
          let arguments ← decodeOperands (decodeExpression limits fuel depth)
            (decodeExpression limits fuel (depth + 1)) count
          pure (.corePrimitive primitive arguments valueType)
      | 4 => do
          let valueType ← decodeType limits fuel 0
          let captures ← decodeVectorMaximum "closure capture count" limits.maximumCoreOperands
            (decodeCoreCapture limits fuel (depth + 1))
          let parameters ← decodeVectorMaximum "closure parameter count" limits.maximumCoreParameters
            (decodeParameter limits fuel)
          let returnType ← decodeType limits fuel 0
          let body ← decodeVectorMaximum "closure statement count" limits.maximumCoreStatements
            (decodeStatement limits fuel)
          pure (.coreClosure captures parameters returnType body valueType)
      | 5 => do
          let valueType ← decodeType limits fuel 0
          let name ← decodeResolvedName limits "let symbol"
          let bindingType ← decodeType limits fuel 0
          let value ← decodeExpression limits fuel (depth + 1)
          let body ← decodeExpression limits fuel (depth + 1)
          pure (.coreLet name bindingType value body valueType)
      | 6 => do
          let valueType ← decodeType limits fuel 0
          let condition ← decodeExpression limits fuel (depth + 1)
          let whenTrue ← decodeExpression limits fuel (depth + 1)
          let whenFalse ← decodeExpression limits fuel (depth + 1)
          pure (.coreConditional condition whenTrue whenFalse valueType)
      | tag => invalidTag "expression tag" tag
termination_by structural fuel => fuel

def decodeCoreCapture (limits : CoreWireLimits) : Nat → Int → CoreDecoder CoreCapture
  | 0, _ => endOfInput "closure capture mode"
  | fuel + 1, depth => do
      let tag ← readWord8 "closure capture mode"
      let mode ← decodeCaptureMode tag
      let name ← decodeResolvedName limits "closure capture symbol"
      let valueType ← decodeType limits fuel 0
      let value ← decodeExpression limits fuel depth
      pure (.coreCapture mode name valueType value)
termination_by structural fuel => fuel

def decodeStatement (limits : CoreWireLimits) : Nat → CoreDecoder CoreStatement
  | 0 => endOfInput "statement tag"
  | fuel + 1 => do
      let tag ← readWord8 "statement tag"
      match tag with
      | 0 => do
          let name ← decodeResolvedName limits "binding symbol"
          let valueType ← decodeType limits fuel 0
          let «mutable» ← decodeBool "binding mutability"
          let value ← decodeExpression limits fuel 0
          pure (.coreBind name valueType «mutable» value)
      | 1 => do
          let name ← decodeResolvedName limits "assignment symbol"
          let value ← decodeExpression limits fuel 0
          pure (.coreAssign name value)
      | 2 => do
          let value ← decodeExpression limits fuel 0
          pure (.coreReturn value)
      | 3 => do
          let condition ← decodeExpression limits fuel 0
          let trueBranch ← decodeVectorMaximum "true branch statement count"
            limits.maximumCoreStatements (decodeStatement limits fuel)
          let falseBranch ← decodeVectorMaximum "false branch statement count"
            limits.maximumCoreStatements (decodeStatement limits fuel)
          pure (.coreIf condition trueBranch falseBranch)
      | 4 => do
          let value ← decodeExpression limits fuel 0
          pure (.coreEvaluate value)
      | 5 => do
          let condition ← decodeExpression limits fuel 0
          let body ← decodeVectorMaximum "while body statement count" limits.maximumCoreStatements
            (decodeStatement limits fuel)
          pure (.coreWhile condition body)
      | 6 => do
          let body ← decodeVectorMaximum "do/while body statement count" limits.maximumCoreStatements
            (decodeStatement limits fuel)
          let condition ← decodeExpression limits fuel 0
          pure (.coreDoWhile body condition)
      | 7 => do
          let condition ← decodeExpression limits fuel 0
          let body ← decodeVectorMaximum "for body statement count" limits.maximumCoreStatements
            (decodeStatement limits fuel)
          let update ← decodeVectorMaximum "for update statement count" limits.maximumCoreStatements
            (decodeStatement limits fuel)
          pure (.coreFor condition body update)
      | 8 => pure .coreBreak
      | 9 => pure .coreContinue
      | tag => invalidTag "statement tag" tag
termination_by structural fuel => fuel

end

/-- A function and its source file. -/
def decodeFunction (limits : CoreWireLimits) (fuel : Nat) : CoreDecoder (CoreFunction × String) := do
  let name ← decodeResolvedName limits "function symbol"
  let source ← decodeText limits "function source file"
  let parameters ← decodeVectorMaximum "parameter count" limits.maximumCoreParameters
    (decodeParameter limits fuel)
  let result ← decodeType limits fuel 0
  let body ← decodeVectorMaximum "statement count" limits.maximumCoreStatements
    (decodeStatement limits fuel)
  pure (⟨name, parameters, result, body⟩, source)

/-- The owners of functions that have a source file. -/
def ownersOf (functionsWithSources : List (CoreFunction × String)) : List (Int × String) :=
  (functionsWithSources.filter fun row => !row.2.isEmpty).map fun row => (row.1.symbol, row.2)

def decodeDocument (limits : CoreWireLimits) (fuel : Nat) : CoreDecoder CoreModule := do
  let header ← takeBytes "magic" 4
  requireDecode (header = magic) .coreInvalidMagic "magic" "input is not a Tala Core document"
  let version ← readWord16 "version"
  requireDecode (version = currentCoreWireVersion) .coreUnsupportedVersion "version"
    "unsupported Core wire version"
  let flags ← readWord16 "flags"
  requireDecode (flags = 0) .coreInvalidTag "flags" "reserved flags must be zero"
  let name ← decodeQualifiedName limits
  let sources ← decodeVectorMaximum "source file count" limits.maximumCoreFunctions
    (decodeText limits "source file")
  let functionsWithSources ← decodeVectorMaximum "function count" limits.maximumCoreFunctions
    (decodeFunction limits fuel)
  pure ⟨name, functionsWithSources.map Prod.fst, sources, ownersOf functionsWithSources⟩

/-- Decode and validate one Core document under explicit resource limits. -/
def decodeCore (limits : CoreWireLimits) (bytes : Bytes) : Except CoreWireError CoreModule :=
  if bytes.length > limits.maximumCoreWireBytes then
    failure .coreLimitExceeded "wire byte length" "input exceeds configured limit"
  else do
    let (moduleValue, remaining) ← decodeDocument limits bytes.length ⟨bytes, 0⟩
    if remaining.rest.isEmpty then .ok moduleValue
    else .error ⟨.coreTrailingInput, remaining.offset, "document", "bytes remain after Core module"⟩

end Tala.Core.Wire
