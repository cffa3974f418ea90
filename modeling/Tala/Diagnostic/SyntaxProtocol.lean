import Tala.Library.Codec

/-!
# `Diagnostic.SyntaxProtocol` — the frontend's decoder of diagnostic documents

`decodeDiagnosticDocument` reads a whole document and validates it afterwards. Texts are strings here, and
the stages and severities are those of the catalog.
-/

namespace Tala.Diagnostic.Syntax

open Tala Tala.Library Tala.Library.Codec

def protocolVersion : UInt16 := 1

/-- `TADG`. -/
def magic : List UInt8 := [84, 65, 68, 71]

/-! ## Documents -/

/-- Pipeline stage that produced a diagnostic. -/
inductive DiagnosticStage
  | sourceLoaderStage | lexerStage | parserStage | renamerStage | nameResolutionStage | typeCheckerStage
  | desugarerStage | coreStage | coreOptimizerStage | corePrepStage | xppLoweringStage | xppOptimizerStage
  | xmmLoweringStage | xmmOptimizerStage | llvmBackendStage
  deriving DecidableEq, Repr

/-- The stages in the order of their tags. -/
def DiagnosticStage.all : List DiagnosticStage :=
  [ .sourceLoaderStage, .lexerStage, .parserStage, .renamerStage, .nameResolutionStage, .typeCheckerStage
  , .desugarerStage, .coreStage, .coreOptimizerStage, .corePrepStage, .xppLoweringStage, .xppOptimizerStage
  , .xmmLoweringStage, .xmmOptimizerStage, .llvmBackendStage ]

/-- Wire-level severity shared with native compiler and editor clients. -/
inductive ProtocolSeverity
  | protocolError | protocolWarning | protocolInformation | protocolHint
  deriving DecidableEq, Repr

def ProtocolSeverity.all : List ProtocolSeverity :=
  [.protocolError, .protocolWarning, .protocolInformation, .protocolHint]

structure DiagnosticArgument where
  argumentName : String
  argumentValue : String
  deriving DecidableEq, Repr

structure DiagnosticLocation where
  locationSource : String
  locationStartLine : UInt32
  locationStartColumn : UInt32
  locationEndLine : UInt32
  locationEndColumn : UInt32
  deriving DecidableEq, Repr

structure DiagnosticRelatedLocation where
  relatedLocation : DiagnosticLocation
  relatedMessage : String
  deriving DecidableEq, Repr

structure DiagnosticTextEdit where
  editLocation : DiagnosticLocation
  editReplacement : String
  deriving DecidableEq, Repr

structure DiagnosticFix where
  fixTitle : String
  fixEdits : List DiagnosticTextEdit
  deriving DecidableEq, Repr

structure DiagnosticRecord where
  recordStage : DiagnosticStage
  recordSeverity : ProtocolSeverity
  recordCode : String
  recordMessage : String
  recordArguments : List DiagnosticArgument
  recordPrimary : Option DiagnosticLocation
  recordRelated : List DiagnosticRelatedLocation
  recordFixes : List DiagnosticFix
  deriving DecidableEq, Repr

structure DiagnosticDocument where
  documentRecords : List DiagnosticRecord
  deriving DecidableEq, Repr

/-- Resource bounds enforced when encoding and decoding untrusted documents. -/
structure DiagnosticProtocolLimits where
  maximumWireBytes : Int
  maximumRecords : Int
  maximumTextScalars : Int
  maximumArguments : Int
  maximumRelatedLocations : Int
  maximumFixes : Int
  maximumEditsPerFix : Int
  deriving DecidableEq, Repr

/-- Conservative default allocation and complexity limits for the protocol. -/
def defaultDiagnosticProtocolLimits : DiagnosticProtocolLimits where
  maximumWireBytes := 16 * 1024 * 1024
  maximumRecords := 65535
  maximumTextScalars := 1024 * 1024
  maximumArguments := 256
  maximumRelatedLocations := 256
  maximumFixes := 128
  maximumEditsPerFix := 4096

structure DiagnosticProtocolError where
  protocolErrorOffset : Nat
  protocolErrorContext : String
  protocolErrorMessage : String
  deriving DecidableEq, Repr

/-! ## Validation -/

abbrev Check := Except DiagnosticProtocolError Unit

def modelError (context message : String) : DiagnosticProtocolError := ⟨0, context, message⟩

def limitError (context message : String) : DiagnosticProtocolError := ⟨0, context, message⟩

/-- `when` with a failure. -/
def failWhen (condition : Bool) (error : DiagnosticProtocolError) : Check :=
  if condition then .error error else .ok ()

/-- `mapM_`. -/
def checkEach {α : Type} (check : α → Check) : List α → Check
  | [] => .ok ()
  | value :: values => do
      check value
      checkEach check values

/-- A list without its repetitions; `seen` are the elements before it. -/
def nubAfter {α : Type} [DecidableEq α] (seen : List α) : List α → List α
  | [] => []
  | value :: values =>
      if value ∈ seen then nubAfter seen values else value :: nubAfter (value :: seen) values

def nub {α : Type} [DecidableEq α] (values : List α) : List α := nubAfter [] values

def isUnicodeScalar (character : Char) : Bool :=
  let value := character.toNat
  value ≤ 0x10ffff && !(value ≥ 0xd800 && value ≤ 0xdfff)

def isAsciiUpper (character : Char) : Bool := character.toNat ≥ 65 && character.toNat ≤ 90

def isDigit (character : Char) : Bool := character.toNat ≥ 48 && character.toNat ≤ 57

def validCode (code : String) : Bool :=
  !code.toList.isEmpty && code.toList.length ≤ 64
    && code.toList.all fun character => isAsciiUpper character || isDigit character || character = '-'

def positionPrecedes (leftLine leftColumn rightLine rightColumn : UInt32) : Bool :=
  leftLine < rightLine || (leftLine = rightLine && leftColumn ≤ rightColumn)

def validateCount (context : String) (maximumCount : Int) (value : Nat) : Check :=
  failWhen (value > maximumCount || value > 2 ^ 32 - 1)
    (limitError context "collection count exceeds configured limit")

section Validate

variable (limits : DiagnosticProtocolLimits)

def validateText (context value : String) : Check := do
  validateCount context limits.maximumTextScalars value.toList.length
  failWhen (!value.toList.all isUnicodeScalar)
    (modelError context "text contains a non-scalar Unicode value")

def validateLocation (context : String) (location : DiagnosticLocation) : Check := do
  failWhen location.locationSource.toList.isEmpty
    (modelError context "diagnostic source identity is empty")
  validateText limits "diagnostic source" location.locationSource
  failWhen
    (!positionPrecedes location.locationStartLine location.locationStartColumn
      location.locationEndLine location.locationEndColumn)
    (modelError context "diagnostic range end precedes its start")

def validateArgument (argument : DiagnosticArgument) : Check := do
  validateText limits "diagnostic argument name" argument.argumentName
  validateText limits "diagnostic argument value" argument.argumentValue

def validateRelated (related : DiagnosticRelatedLocation) : Check := do
  validateLocation limits "related location" related.relatedLocation
  failWhen related.relatedMessage.toList.isEmpty
    (modelError "related location message" "related location message is empty")
  validateText limits "related location message" related.relatedMessage

def validateEdit (edit : DiagnosticTextEdit) : Check := do
  validateLocation limits "diagnostic edit" edit.editLocation
  validateText limits "diagnostic edit replacement" edit.editReplacement

def validateFix (fix : DiagnosticFix) : Check := do
  failWhen fix.fixTitle.toList.isEmpty (modelError "diagnostic fix title" "diagnostic fix title is empty")
  failWhen fix.fixEdits.isEmpty
    (modelError "diagnostic fix edits" "diagnostic fix must contain at least one edit")
  validateText limits "diagnostic fix title" fix.fixTitle
  validateCount "diagnostic edit count" limits.maximumEditsPerFix fix.fixEdits.length
  checkEach (validateEdit limits) fix.fixEdits

def validateRecord (record : DiagnosticRecord) : Check := do
  failWhen (!validCode record.recordCode)
    (modelError "diagnostic code" "diagnostic code must be 1-64 ASCII uppercase, digit, or hyphen scalars")
  failWhen record.recordMessage.toList.isEmpty (modelError "diagnostic message" "diagnostic message is empty")
  validateText limits "diagnostic code" record.recordCode
  validateText limits "diagnostic message" record.recordMessage
  validateCount "diagnostic argument count" limits.maximumArguments record.recordArguments.length
  let names := record.recordArguments.map DiagnosticArgument.argumentName
  failWhen (names.any fun name => name.toList.isEmpty)
    (modelError "diagnostic argument name" "diagnostic argument name is empty")
  failWhen (names.length ≠ (nub names).length)
    (modelError "diagnostic argument name" "diagnostic argument names must be unique within one record")
  checkEach (validateArgument limits) record.recordArguments
  checkEach (validateLocation limits "primary location") record.recordPrimary.toList
  validateCount "related location count" limits.maximumRelatedLocations record.recordRelated.length
  checkEach (validateRelated limits) record.recordRelated
  validateCount "diagnostic fix count" limits.maximumFixes record.recordFixes.length
  checkEach (validateFix limits) record.recordFixes

def validateDocument (document : DiagnosticDocument) : Check := do
  validateCount "diagnostic count" limits.maximumRecords document.documentRecords.length
  checkEach (validateRecord limits) document.documentRecords

end Validate

/-! ## Decoding -/

abbrev ProtocolDecoder (α : Type) := Decoder UInt8 DiagnosticProtocolError α

def failDecoder (context message : String) (offset : Nat) : DiagnosticProtocolError :=
  ⟨offset, context, message⟩

def byte (context : String) : ProtocolDecoder UInt8 := fun state =>
  match state.rest with
  | [] => .error ⟨state.offset, context, "input ended before field was complete"⟩
  | value :: rest => .ok (value, ⟨rest, state.offset + 1⟩)

def word16 (context : String) : ProtocolDecoder UInt16 := do
  let low ← byte context
  let high ← byte context
  pure (low.toUInt16 ||| high.toUInt16 <<< 8)

def word32 (context : String) : ProtocolDecoder UInt32 := do
  let a ← byte context
  let b ← byte context
  let c ← byte context
  let d ← byte context
  pure (a.toUInt32 ||| b.toUInt32 <<< 8 ||| c.toUInt32 <<< 16 ||| d.toUInt32 <<< 24)

def boolean (context : String) : ProtocolDecoder Bool := do
  let value ← byte context
  match value with
  | 0 => pure false
  | 1 => pure true
  | _ => Decoder.fail (failDecoder context "boolean byte must be zero or one")

def boundedCount (context : String) (maximum : Int) : ProtocolDecoder Nat := do
  let value ← word32 context
  Decoder.require (value.toNat ≤ maximum)
    (failDecoder context "collection count exceeds configured limit")
  pure value.toNat

def validScalar (value : UInt32) : Bool := value ≤ 0x10ffff && !(value ≥ 0xd800 && value ≤ 0xdfff)

section Decode

variable (limits : DiagnosticProtocolLimits)

def text (context : String) : ProtocolDecoder String := do
  let count ← boundedCount context limits.maximumTextScalars
  let values ← Decoder.many count (word32 context)
  Decoder.require (values.all validScalar)
    (failDecoder context "text contains a non-scalar Unicode value")
  pure (String.ofList (values.map fun value => Char.ofNat value.toNat))

def decodeLocation : ProtocolDecoder DiagnosticLocation := do
  let source ← text limits "diagnostic source"
  let startLine ← word32 "diagnostic start line"
  let startColumn ← word32 "diagnostic start column"
  let endLine ← word32 "diagnostic end line"
  let endColumn ← word32 "diagnostic end column"
  pure ⟨source, startLine, startColumn, endLine, endColumn⟩

def decodeStage : ProtocolDecoder DiagnosticStage := do
  let tag ← byte "diagnostic stage"
  if h : tag.toNat < DiagnosticStage.all.length then pure (DiagnosticStage.all.get ⟨tag.toNat, h⟩)
  else Decoder.fail (failDecoder "diagnostic stage" "unknown diagnostic stage tag")

def decodeSeverity : ProtocolDecoder ProtocolSeverity := do
  let tag ← byte "diagnostic severity"
  if h : tag.toNat < ProtocolSeverity.all.length then pure (ProtocolSeverity.all.get ⟨tag.toNat, h⟩)
  else Decoder.fail (failDecoder "diagnostic severity" "unknown diagnostic severity tag")

def decodeArgument : ProtocolDecoder DiagnosticArgument := do
  let name ← text limits "diagnostic argument name"
  let value ← text limits "diagnostic argument value"
  pure ⟨name, value⟩

def decodePrimary : ProtocolDecoder (Option DiagnosticLocation) := do
  let hasPrimary ← boolean "primary location presence"
  if hasPrimary then do
    let location ← decodeLocation limits
    pure (some location)
  else pure none

def decodeRelated : ProtocolDecoder DiagnosticRelatedLocation := do
  let location ← decodeLocation limits
  let message ← text limits "related location message"
  pure ⟨location, message⟩

def decodeEdit : ProtocolDecoder DiagnosticTextEdit := do
  let location ← decodeLocation limits
  let replacement ← text limits "diagnostic edit replacement"
  pure ⟨location, replacement⟩

def decodeFix : ProtocolDecoder DiagnosticFix := do
  let title ← text limits "diagnostic fix title"
  let editCount ← boundedCount "diagnostic edit count" limits.maximumEditsPerFix
  let edits ← Decoder.many editCount (decodeEdit limits)
  pure ⟨title, edits⟩

def decodeRecord : ProtocolDecoder DiagnosticRecord := do
  let stage ← decodeStage
  let severity ← decodeSeverity
  let code ← text limits "diagnostic code"
  let message ← text limits "diagnostic message"
  let argumentCount ← boundedCount "diagnostic argument count" limits.maximumArguments
  let arguments ← Decoder.many argumentCount (decodeArgument limits)
  let primary ← decodePrimary limits
  let relatedCount ← boundedCount "related location count" limits.maximumRelatedLocations
  let related ← Decoder.many relatedCount (decodeRelated limits)
  let fixCount ← boundedCount "diagnostic fix count" limits.maximumFixes
  let fixes ← Decoder.many fixCount (decodeFix limits)
  pure ⟨stage, severity, code, message, arguments, primary, related, fixes⟩

def decodeDocument : ProtocolDecoder DiagnosticDocument := do
  let observedMagic ← Decoder.many 4 (byte "magic")
  Decoder.require (observedMagic = magic) (failDecoder "magic" "input is not a Tala diagnostic document")
  let version ← word16 "version"
  Decoder.require (version = protocolVersion)
    (failDecoder "version" "unsupported diagnostic protocol version")
  let flags ← word16 "flags"
  Decoder.require (flags = 0) (failDecoder "flags" "reserved diagnostic flags must be zero")
  let count ← boundedCount "diagnostic count" limits.maximumRecords
  let records ← Decoder.many count (decodeRecord limits)
  pure ⟨records⟩

/-- Decode one complete document, rejecting unsupported versions and trailing bytes. -/
def decodeDiagnosticDocument (bytes : List UInt8) : Except DiagnosticProtocolError DiagnosticDocument :=
  if (bytes.length : Int) > limits.maximumWireBytes then
    .error (limitError "wire byte length" "diagnostic document exceeds configured byte limit")
  else
    match decodeDocument limits ⟨bytes, 0⟩ with
    | .error error => .error error
    | .ok (document, state) =>
        if state.offset ≠ bytes.length then
          .error ⟨state.offset, "document", "bytes remain after diagnostic document"⟩
        else
          match validateDocument limits document with
          | .error error => .error error
          | .ok () => .ok document

end Decode

end Tala.Diagnostic.Syntax
