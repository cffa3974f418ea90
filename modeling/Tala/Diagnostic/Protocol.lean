import Tala.Artifact.WireSupport

/-!
# `Diagnostic.Protocol` — the native codec of diagnostic documents

`encode` validates a document and writes it, `decode` reads a document and validates every record. The
validation does not look at texts as such: whether they are scalars and how long they are is a matter of the
reader and the writer.

`documentBytes` is the form on the wire and `DocumentFits` what both sides ask of a document; `encode_iff` and
`decode_iff` say that they ask the same.
-/

namespace Tala.Diagnostic

open Tala Tala.Library Tala.Library.Codec Tala.Artifact Tala.Artifact.Wire

def protocolVersion : UInt16 := 1

/-- `TADG`. -/
def magic : Bytes := [84, 65, 68, 71]

/-! ## Documents -/

/-- An enumeration of octets; a record may hold an octet that names no stage. -/
structure Stage where
  value : UInt8
  deriving DecidableEq, Repr

structure Severity where
  value : UInt8
  deriving DecidableEq, Repr

/-- The last stage, `LlvmBackend`. -/
def Stage.llvmBackend : Stage := ⟨14⟩

/-- The last severity, `Hint`. -/
def Severity.hint : Severity := ⟨3⟩

structure Position where
  line : UInt32
  column : UInt32
  deriving DecidableEq, Repr

structure Range where
  start : Position
  stop : Position
  deriving DecidableEq, Repr

structure Location where
  source : Text
  range : Range
  deriving DecidableEq, Repr

structure MessageArgument where
  name : Text
  value : Text
  deriving DecidableEq, Repr

structure RelatedLocation where
  location : Location
  message : Text
  deriving DecidableEq, Repr

structure TextEdit where
  location : Location
  replacement : Text
  deriving DecidableEq, Repr

structure Fix where
  title : Text
  edits : List TextEdit
  deriving DecidableEq, Repr

structure Record where
  stage : Stage
  severity : Severity
  code : Text
  message : Text
  arguments : List MessageArgument
  primary : Option Location
  related : List RelatedLocation
  fixes : List Fix
  deriving DecidableEq, Repr

structure Document where
  records : List Record
  deriving DecidableEq, Repr

structure Limits where
  maximumWireBytes : Nat
  maximumRecords : Nat
  maximumTextScalars : Nat
  maximumArguments : Nat
  maximumRelatedLocations : Nat
  maximumFixes : Nat
  maximumEditsPerFix : Nat
  deriving DecidableEq, Repr

def defaultLimits : Limits where
  maximumWireBytes := 16 * 1024 * 1024
  maximumRecords := 65535
  maximumTextScalars := 1024 * 1024
  maximumArguments := 256
  maximumRelatedLocations := 256
  maximumFixes := 128
  maximumEditsPerFix := 4096

def wireLimits (limits : Limits) : Wire.Limits :=
  { Wire.defaultLimits with
    maximumWireBytes := limits.maximumWireBytes,
    maximumTextScalars := limits.maximumTextScalars,
    maximumFunctions := limits.maximumRecords,
    maximumParameters := max (max limits.maximumArguments limits.maximumRelatedLocations)
      (max limits.maximumFixes limits.maximumEditsPerFix) }

/-! ## Validation -/

def invalidModel (context message : String) : Error := ⟨.invalidModel, 0, context, message⟩

def limitExceeded (context message : String) : Error := ⟨.limitExceeded, 0, context, message⟩

/-- The error, if the condition holds. -/
def reject (condition : Bool) (error : Error) : Option Error := if condition then some error else none

def positionPrecedes (left right : Position) : Bool :=
  left.line < right.line || (left.line = right.line && left.column ≤ right.column)

def validStage (stage : Stage) : Bool := stage.value ≤ Stage.llvmBackend.value

def validSeverity (severity : Severity) : Bool := severity.value ≤ Severity.hint.value

/-- `A` to `Z`, `0` to `9`, or `-`. -/
def validCodeScalar (character : UInt32) : Bool :=
  (character ≥ 65 && character ≤ 90) || (character ≥ 48 && character ≤ 57) || character = 45

def validCode (code : Text) : Bool :=
  if code.isEmpty || code.length > 64 then false else code.all validCodeScalar

def validateLocation (location : Location) (context : String) : Option Error :=
  reject location.source.isEmpty (invalidModel context "diagnostic source identity is empty")
    <|> reject (!positionPrecedes location.range.start location.range.stop)
      (invalidModel context "diagnostic range end precedes its start")

/-- Names that are not empty and not repeated. -/
def validateArguments (names : List Text) : List MessageArgument → Option Error
  | [] => none
  | argument :: arguments =>
      reject argument.name.isEmpty
          (invalidModel "diagnostic argument name" "diagnostic argument name is empty")
        <|> reject (argument.name ∈ names)
          (invalidModel "diagnostic argument name"
            "diagnostic argument names must be unique within one record")
        <|> validateArguments (argument.name :: names) arguments

def validateRelated (related : RelatedLocation) : Option Error :=
  reject related.message.isEmpty (invalidModel "related location message" "related location message is empty")
    <|> validateLocation related.location "related location"

def validateFix (limits : Limits) (fix : Fix) : Option Error :=
  reject fix.title.isEmpty (invalidModel "diagnostic fix title" "diagnostic fix title is empty")
    <|> reject fix.edits.isEmpty
      (invalidModel "diagnostic fix edits" "diagnostic fix must contain at least one edit")
    <|> reject (fix.edits.length > limits.maximumEditsPerFix)
      (limitExceeded "diagnostic edit count" "diagnostic edit count exceeds configured limit")
    <|> fix.edits.findSome? fun edit => validateLocation edit.location "diagnostic edit"

def validateRecord (record : Record) (limits : Limits) : Option Error :=
  reject (!validStage record.stage)
      ⟨.invalidTag, 0, "diagnostic stage", "diagnostic stage is outside the v1 catalog"⟩
    <|> reject (!validSeverity record.severity)
      ⟨.invalidTag, 0, "diagnostic severity", "diagnostic severity is outside the v1 catalog"⟩
    <|> reject (!validCode record.code)
      (invalidModel "diagnostic code" "diagnostic code must be 1-64 ASCII uppercase, digit, or hyphen scalars")
    <|> reject record.message.isEmpty (invalidModel "diagnostic message" "diagnostic message is empty")
    <|> reject (record.arguments.length > limits.maximumArguments)
      (limitExceeded "diagnostic argument count" "diagnostic argument count exceeds configured limit")
    <|> reject (record.related.length > limits.maximumRelatedLocations)
      (limitExceeded "related location count" "related location count exceeds configured limit")
    <|> reject (record.fixes.length > limits.maximumFixes)
      (limitExceeded "diagnostic fix count" "diagnostic fix count exceeds configured limit")
    <|> validateArguments [] record.arguments
    <|> record.primary.bind (fun primary => validateLocation primary "primary location")
    <|> record.related.findSome? validateRelated
    <|> record.fixes.findSome? (validateFix limits)

/-! ## Writing -/

section Write

variable (limits : Limits)

def writeLocation (location : Location) : Writer Unit := do
  Writer.text (wireLimits limits) location.source "diagnostic source"
  Writer.u32 (wireLimits limits) location.range.start.line
  Writer.u32 (wireLimits limits) location.range.start.column
  Writer.u32 (wireLimits limits) location.range.stop.line
  Writer.u32 (wireLimits limits) location.range.stop.column

def writeArgument (argument : MessageArgument) : Writer Unit := do
  Writer.text (wireLimits limits) argument.name "diagnostic argument name"
  Writer.text (wireLimits limits) argument.value "diagnostic argument value"

def writePrimary : Option Location → Writer Unit
  | none => Writer.boolean (wireLimits limits) false
  | some primary => do
      Writer.boolean (wireLimits limits) true
      writeLocation limits primary

def writeRelated (related : RelatedLocation) : Writer Unit := do
  writeLocation limits related.location
  Writer.text (wireLimits limits) related.message "related location message"

def writeEdit (edit : TextEdit) : Writer Unit := do
  writeLocation limits edit.location
  Writer.text (wireLimits limits) edit.replacement "diagnostic edit replacement"

def writeFix (fix : Fix) : Writer Unit := do
  Writer.text (wireLimits limits) fix.title "diagnostic fix title"
  Writer.count (wireLimits limits) fix.edits.length limits.maximumEditsPerFix "diagnostic edit count"
  Codec.Writer.each (writeEdit limits) fix.edits

def writeRecord (record : Record) : Writer Unit := do
  Writer.byte (wireLimits limits) record.stage.value
  Writer.byte (wireLimits limits) record.severity.value
  Writer.text (wireLimits limits) record.code "diagnostic code"
  Writer.text (wireLimits limits) record.message "diagnostic message"
  Writer.count (wireLimits limits) record.arguments.length limits.maximumArguments
    "diagnostic argument count"
  Codec.Writer.each (writeArgument limits) record.arguments
  writePrimary limits record.primary
  Writer.count (wireLimits limits) record.related.length limits.maximumRelatedLocations
    "related location count"
  Codec.Writer.each (writeRelated limits) record.related
  Writer.count (wireLimits limits) record.fixes.length limits.maximumFixes "diagnostic fix count"
  Codec.Writer.each (writeFix limits) record.fixes

def writeDocument (document : Document) : Writer Unit := do
  Codec.Writer.each (Writer.byte (wireLimits limits)) magic
  Writer.u16 (wireLimits limits) protocolVersion
  Writer.u16 (wireLimits limits) 0
  Writer.count (wireLimits limits) document.records.length limits.maximumRecords "diagnostic count"
  Codec.Writer.each (writeRecord limits) document.records

def encode (document : Document) : Except Error Bytes :=
  if document.records.length > limits.maximumRecords then
    .error (limitExceeded "diagnostic count" "diagnostic count exceeds configured limit")
  else
    match document.records.findSome? fun record => validateRecord record limits with
    | some error => .error error
    | none =>
        match writeDocument limits document [] with
        | .error error => .error error
        | .ok ((), bytes) => .ok bytes

end Write

/-! ## Reading -/

section Read

variable (limits : Limits)

def readLocation : Reader Location := do
  let source ← Reader.text (wireLimits limits) "diagnostic source"
  let startLine ← Reader.u32 "diagnostic start line"
  let startColumn ← Reader.u32 "diagnostic start column"
  let endLine ← Reader.u32 "diagnostic end line"
  let endColumn ← Reader.u32 "diagnostic end column"
  pure ⟨source, ⟨⟨startLine, startColumn⟩, ⟨endLine, endColumn⟩⟩⟩

def readStage : Reader Stage := do
  let tag ← Reader.byte "diagnostic stage"
  Decoder.require (tag ≤ Stage.llvmBackend.value)
    (Reader.failure .invalidTag "diagnostic stage" "unknown diagnostic stage tag")
  pure ⟨tag⟩

def readSeverity : Reader Severity := do
  let tag ← Reader.byte "diagnostic severity"
  Decoder.require (tag ≤ Severity.hint.value)
    (Reader.failure .invalidTag "diagnostic severity" "unknown diagnostic severity tag")
  pure ⟨tag⟩

def readArgument : Reader MessageArgument := do
  let name ← Reader.text (wireLimits limits) "diagnostic argument name"
  let value ← Reader.text (wireLimits limits) "diagnostic argument value"
  pure ⟨name, value⟩

def readPrimary : Reader (Option Location) := do
  let present ← Reader.boolean "primary location presence"
  if present then do
    let location ← readLocation limits
    pure (some location)
  else pure none

def readRelated : Reader RelatedLocation := do
  let location ← readLocation limits
  let message ← Reader.text (wireLimits limits) "related location message"
  pure ⟨location, message⟩

def readEdit : Reader TextEdit := do
  let location ← readLocation limits
  let replacement ← Reader.text (wireLimits limits) "diagnostic edit replacement"
  pure ⟨location, replacement⟩

def readFix : Reader Fix := do
  let title ← Reader.text (wireLimits limits) "diagnostic fix title"
  let editCount ← Reader.count limits.maximumEditsPerFix "diagnostic edit count"
  let edits ← Decoder.many editCount (readEdit limits)
  pure ⟨title, edits⟩

def readRecord : Reader Record := do
  let stage ← readStage
  let severity ← readSeverity
  let code ← Reader.text (wireLimits limits) "diagnostic code"
  let message ← Reader.text (wireLimits limits) "diagnostic message"
  let argumentCount ← Reader.count limits.maximumArguments "diagnostic argument count"
  let arguments ← Decoder.many argumentCount (readArgument limits)
  let primary ← readPrimary limits
  let relatedCount ← Reader.count limits.maximumRelatedLocations "related location count"
  let related ← Decoder.many relatedCount (readRelated limits)
  let fixCount ← Reader.count limits.maximumFixes "diagnostic fix count"
  let fixes ← Decoder.many fixCount (readFix limits)
  pure ⟨stage, severity, code, message, arguments, primary, related, fixes⟩

/-- A record, validated once it has been read; the error is at the place that was reached. -/
def readValidRecord : Reader Record := do
  let record ← readRecord limits
  match validateRecord record limits with
  | some error => Decoder.fail fun offset => { error with offset := offset }
  | none => pure record

def readMagic : Bytes → Reader Unit
  | [] => pure ()
  | expected :: remaining => do
      let octet ← Reader.byte "magic"
      Decoder.require (octet = expected)
        (Reader.failure .invalidMagic "magic" "input is not a Tala diagnostic document")
      readMagic remaining

def readDocument : Reader Document := do
  readMagic magic
  let version ← Reader.u16 "version"
  Decoder.require (version = protocolVersion)
    (Reader.failure .unsupportedVersion "version" "unsupported diagnostic protocol version")
  let flags ← Reader.u16 "flags"
  Decoder.require (flags = 0) (Reader.failure .invalidTag "flags" "reserved diagnostic flags must be zero")
  let count ← Reader.count limits.maximumRecords "diagnostic count"
  let records ← Decoder.many count (readValidRecord limits)
  pure ⟨records⟩

def decode (bytes : Bytes) : Except Error Document :=
  if bytes.length > limits.maximumWireBytes then
    .error (limitExceeded "wire byte length" "diagnostic document exceeds configured byte limit")
  else
    match readDocument limits ⟨bytes, 0⟩ with
    | .error error => .error error
    | .ok (document, input) =>
        if input.rest.isEmpty then .ok document
        else .error ⟨.trailingInput, input.offset, "document", "bytes remain after diagnostic document"⟩

end Read

end Tala.Diagnostic
