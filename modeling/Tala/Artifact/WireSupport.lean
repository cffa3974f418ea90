import Tala.Library.Codec

/-!
# `Artifact.WireSupport` — the bounded reader and writer of native documents

A reader or writer that has failed does nothing more and keeps its first error, and what it was used for
then returns that error; so a failure is an exception here. Words have their least octet first, a text is
the count of its scalars and then the scalars.

Each primitive has two lemmas: `…_reads` and `…_yields` for the reader, and one for the writer. A text on
the wire is `textBytes`; `TextFits` is what both sides ask of it.
-/

namespace Tala.Artifact.Wire

open Tala Tala.Library Tala.Library.Codec

/-! ## Limits and errors -/

structure Limits where
  maximumWireBytes : Nat
  maximumTextScalars : Nat
  maximumFunctions : Nat
  maximumParameters : Nat
  maximumBlocks : Nat
  maximumInstructions : Nat
  maximumOperands : Nat
  maximumTypeDepth : Nat
  maximumNumericBytes : Nat

def defaultLimits : Limits where
  maximumWireBytes := 64 * 1024 * 1024
  maximumTextScalars := 1024 * 1024
  maximumFunctions := 65535
  maximumParameters := 65535
  maximumBlocks := 1048576
  maximumInstructions := 1048576
  maximumOperands := 65535
  maximumTypeDepth := 128
  maximumNumericBytes := 4096

inductive ErrorKind
  | invalidMagic | unsupportedVersion | truncatedInput | trailingInput | invalidTag | invalidBoolean
  | invalidScalar | invalidSymbol | invalidInteger | limitExceeded | invalidModel
  deriving DecidableEq, Repr

structure Error where
  kind : ErrorKind
  offset : Nat
  context : String
  message : String
  deriving DecidableEq, Repr

abbrev Bytes := List UInt8

/-- Code units of 32 bits, which need not be scalars. -/
abbrev Text := List UInt32

def isUnicodeScalar (value : UInt32) : Bool :=
  value ≤ 0x10ffff && (value < 0xd800 || value > 0xdfff)

/-! ## The writer -/

abbrev Writer := Codec.Writer UInt8 Error

namespace Writer

variable (limits : Limits)

def fail (kind : ErrorKind) (context message : String) : Writer Unit :=
  Codec.Writer.fail fun offset => ⟨kind, offset, context, message⟩

/-- Append octets that are written in one step. -/
def append (bytes : Bytes) : Writer Unit :=
  Codec.Writer.append limits.maximumWireBytes bytes fun offset =>
    ⟨.limitExceeded, offset, "wire byte length", "encoded artifact exceeds configured byte limit"⟩

def byte (value : UInt8) : Writer Unit := append limits [value]

def u16 (value : UInt16) : Writer Unit := append limits (littleEndian 2 value.toNat)

def u32 (value : UInt32) : Writer Unit := append limits (littleEndian 4 value.toNat)

def u64 (value : UInt64) : Writer Unit := append limits (littleEndian 8 value.toNat)

def boolean (value : Bool) : Writer Unit := byte limits (if value then 1 else 0)

def count (value maximum : Nat) (context : String) : Writer Unit :=
  if value > maximum || value > 2 ^ 32 - 1 then
    fail .limitExceeded context "collection count exceeds configured limit"
  else u32 limits (UInt32.ofNat value)

def text (value : Text) (context : String) : Writer Unit := do
  count limits value.length limits.maximumTextScalars context
  Codec.Writer.each
    (fun scalar =>
      if !isUnicodeScalar scalar then fail .invalidScalar context "text contains a non-scalar Unicode value"
      else u32 limits scalar)
    value

end Writer

/-! ## The reader -/

abbrev Reader := Decoder UInt8 Error

namespace Reader

variable (limits : Limits)

def failure (kind : ErrorKind) (context message : String) (offset : Nat) : Error :=
  ⟨kind, offset, context, message⟩

def byte (context : String) : Reader UInt8 := fun input =>
  match input.rest with
  | [] => .error ⟨.truncatedInput, input.offset, context, "input ended before field was complete"⟩
  | value :: rest => .ok (value, ⟨rest, input.offset + 1⟩)

def readUnsigned (width : Nat) (context : String) : Reader Nat := do
  let octets ← Decoder.many width (byte context)
  pure (ofLittleEndian octets)

def u16 (context : String) : Reader UInt16 := do
  let value ← readUnsigned 2 context
  pure (UInt16.ofNat value)

def u32 (context : String) : Reader UInt32 := do
  let value ← readUnsigned 4 context
  pure (UInt32.ofNat value)

def u64 (context : String) : Reader UInt64 := do
  let value ← readUnsigned 8 context
  pure (UInt64.ofNat value)

def boolean (context : String) : Reader Bool := do
  let value ← byte context
  Decoder.require (value ≤ 1) (failure .invalidBoolean context "boolean byte must be zero or one")
  pure (value = 1)

def count (maximum : Nat) (context : String) : Reader Nat := do
  let value ← u32 context
  Decoder.require (value.toNat ≤ maximum)
    (failure .limitExceeded context "collection count exceeds configured limit")
  pure value.toNat

def scalar (context : String) : Reader UInt32 := do
  let scalar ← u32 context
  Decoder.require (isUnicodeScalar scalar)
    (failure .invalidScalar context "text contains a non-scalar Unicode value")
  pure scalar

def text (context : String) : Reader Text := do
  let count ← count limits.maximumTextScalars context
  Decoder.many count (scalar context)

end Reader

/-! ## Words and texts on the wire -/

def u16Bytes (value : UInt16) : Bytes := littleEndian 2 value.toNat

def u32Bytes (value : UInt32) : Bytes := littleEndian 4 value.toNat

def u64Bytes (value : UInt64) : Bytes := littleEndian 8 value.toNat

def booleanByte (value : Bool) : UInt8 := if value then 1 else 0

def countBytes (value : Nat) : Bytes := littleEndian 4 value

/-- A count that both sides accept. -/
def CountFits (maximum value : Nat) : Prop := value ≤ maximum ∧ value < 2 ^ 32

def textBytes (value : Text) : Bytes := countBytes value.length ++ value.flatMap u32Bytes

def TextFits (limits : Limits) (value : Text) : Prop :=
  CountFits limits.maximumTextScalars value.length ∧ ∀ scalar ∈ value, isUnicodeScalar scalar = true

section Primitives

variable {limits : Limits}

theorem byte_reads (context : String) (value : UInt8) : Reads (Reader.byte context) [value] value := by
  intro rest offset
  rfl

theorem byte_yields (context : String) : Yields (Reader.byte context) fun value items => items = [value] := by
  intro input value next hrun
  unfold Reader.byte at hrun
  split at hrun
  · cases hrun
  · next first rest hrest =>
    cases hrun
    exact ⟨[value], rfl, hrest⟩

theorem readUnsigned_reads (context : String) {width value : Nat} (h : value < 256 ^ width) :
    Reads (Reader.readUnsigned width context) (littleEndian width value) value := by
  have hoctets := @Reads.flatMap _ _ _ _ (fun octet => [octet]) (Reader.byte context) id
    (littleEndian width value) fun octet _ => byte_reads context octet
  have hlast := @Reads.last _ _ _ _ _ ofLittleEndian _ _ hoctets
  rw [List.map_id, ofLittleEndian_littleEndian, Nat.mod_eq_of_lt h, length_littleEndian,
    List.flatMap_singleton'] at hlast
  exact hlast

theorem readUnsigned_yields (width : Nat) (context : String) :
    Yields (Reader.readUnsigned width context) fun value items =>
      value < 256 ^ width ∧ items = littleEndian width value := by
  have hbyte : Yields (Reader.byte context) fun value items => True ∧ items = [value] :=
    (byte_yields context).weaken fun _ _ h => ⟨trivial, h⟩
  apply (Yields.many hbyte width).last
  rintro octets _ ⟨rfl, _, rfl⟩
  refine ⟨ofLittleEndian_lt octets, ?_⟩
  rw [littleEndian_ofLittleEndian, List.flatMap_singleton']

theorem u16_reads (context : String) (value : UInt16) : Reads (Reader.u16 context) (u16Bytes value) value := by
  have hread := @Reads.last _ _ _ _ _ UInt16.ofNat _ _
    (@readUnsigned_reads context 2 value.toNat value.toNat_lt)
  rwa [UInt16.ofNat_toNat] at hread

theorem u16_yields (context : String) :
    Yields (Reader.u16 context) fun value items => items = u16Bytes value := by
  apply (readUnsigned_yields 2 context).last
  rintro value _ ⟨hvalue, rfl⟩
  unfold u16Bytes
  rw [UInt16.toNat_ofNat_of_lt' hvalue]

theorem u32_reads (context : String) (value : UInt32) : Reads (Reader.u32 context) (u32Bytes value) value := by
  have hread := @Reads.last _ _ _ _ _ UInt32.ofNat _ _
    (@readUnsigned_reads context 4 value.toNat value.toNat_lt)
  rwa [UInt32.ofNat_toNat] at hread

theorem u32_yields (context : String) :
    Yields (Reader.u32 context) fun value items => items = u32Bytes value := by
  apply (readUnsigned_yields 4 context).last
  rintro value _ ⟨hvalue, rfl⟩
  unfold u32Bytes
  rw [UInt32.toNat_ofNat_of_lt' hvalue]

theorem boolean_reads (context : String) (value : Bool) :
    Reads (Reader.boolean context) [booleanByte value] value := by
  cases value with
  | false => exact (byte_reads context 0).item ((Reads.require _ rfl).step (Reads.pure false))
  | true => exact (byte_reads context 1).item ((Reads.require _ rfl).step (Reads.pure true))

theorem boolean_yields (context : String) :
    Yields (Reader.boolean context) fun value items => items = [booleanByte value] := by
  apply (byte_yields context).bind
  rintro value _ rfl
  apply Yields.require
  intro hvalue
  apply Yields.pure
  -- only zero and one are left
  have hle : value.toNat ≤ 1 := by
    have := UInt8.le_iff_toNat_le.mp (of_decide_eq_true hvalue)
    exact this
  have hcases : value = 0 ∨ value = 1 := by
    rcases Nat.le_one_iff_eq_zero_or_eq_one.mp hle with hzero | hone
    · exact Or.inl (UInt8.toNat_inj.mp hzero)
    · exact Or.inr (UInt8.toNat_inj.mp hone)
  rcases hcases with rfl | rfl
  · rfl
  · rfl

theorem count_reads (context : String) {maximum value : Nat} (h : CountFits maximum value) :
    Reads (Reader.count maximum context) (countBytes value) value := by
  have hnat : (UInt32.ofNat value).toNat = value := UInt32.toNat_ofNat_of_lt' h.2
  have hword := u32_reads context (UInt32.ofNat value)
  unfold u32Bytes at hword
  rw [hnat] at hword
  have hread := @Reads.checked _ _ _ _ _ (fun word : UInt32 => decide (word.toNat ≤ maximum))
    (Reader.failure .limitExceeded context "collection count exceeds configured limit") UInt32.toNat _ _ hword
    (by rw [hnat]; exact decide_eq_true h.1)
  rwa [hnat] at hread

theorem count_yields (maximum : Nat) (context : String) :
    Yields (Reader.count maximum context) fun value items =>
      CountFits maximum value ∧ items = countBytes value := by
  apply (u32_yields context).bind
  rintro value _ rfl
  apply Yields.require
  intro hvalue
  apply Yields.pure
  rw [List.append_nil]
  exact ⟨⟨of_decide_eq_true hvalue, value.toNat_lt⟩, rfl⟩

theorem scalar_reads (context : String) {value : UInt32} (h : isUnicodeScalar value = true) :
    Reads (Reader.scalar context) (u32Bytes value) value :=
  @Reads.checked _ _ _ _ _ isUnicodeScalar _ id _ _ (u32_reads context value) h

theorem scalar_yields (context : String) :
    Yields (Reader.scalar context) fun value items =>
      isUnicodeScalar value = true ∧ items = u32Bytes value := by
  apply (u32_yields context).bind
  rintro value _ rfl
  apply Yields.require
  intro hvalue
  apply Yields.pure
  rw [List.append_nil]
  exact ⟨hvalue, rfl⟩

theorem text_reads (context : String) {value : Text} (h : TextFits limits value) :
    Reads (Reader.text limits context) (textBytes value) value := by
  apply (count_reads context h.1).bind
  have hscalars := @Reads.flatMap _ _ _ _ u32Bytes (Reader.scalar context) id value
    fun scalar hscalar => scalar_reads context (h.2 scalar hscalar)
  rwa [List.map_id] at hscalars

theorem text_yields (context : String) :
    Yields (Reader.text limits context) fun value items => TextFits limits value ∧ items = textBytes value := by
  apply (count_yields limits.maximumTextScalars context).bind
  rintro count _ ⟨hcount, rfl⟩
  apply (Yields.many (scalar_yields context) count).weaken
  rintro value _ ⟨rfl, hscalars, rfl⟩
  exact ⟨⟨hcount, hscalars⟩, rfl⟩

/-! ### The writer -/

theorem append_writes (bytes : Bytes) :
    Writes limits.maximumWireBytes (Writer.append limits bytes) True bytes :=
  Writes.append _ _

theorem byte_writes (value : UInt8) : Writes limits.maximumWireBytes (Writer.byte limits value) True [value] :=
  append_writes _

theorem u16_writes (value : UInt16) :
    Writes limits.maximumWireBytes (Writer.u16 limits value) True (u16Bytes value) :=
  append_writes _

theorem u32_writes (value : UInt32) :
    Writes limits.maximumWireBytes (Writer.u32 limits value) True (u32Bytes value) :=
  append_writes _

theorem boolean_writes (value : Bool) :
    Writes limits.maximumWireBytes (Writer.boolean limits value) True [booleanByte value] :=
  append_writes _

theorem bytes_writes (bytes : Bytes) :
    Writes limits.maximumWireBytes (Codec.Writer.each (Writer.byte limits) bytes) True bytes := by
  have heach := @Writes.each _ _ _ limits.maximumWireBytes (Writer.byte limits) (fun _ => True)
    (fun octet => [octet]) bytes fun octet _ => byte_writes octet
  apply heach.congr
  · simp
  · intro _
    exact List.flatMap_singleton' bytes

theorem fail_writes (kind : ErrorKind) (context message : String) (bytes : Bytes) :
    Writes limits.maximumWireBytes (Writer.fail kind context message) False bytes :=
  Writes.fail _ _

theorem count_writes (value maximum : Nat) (context : String) :
    Writes limits.maximumWireBytes (Writer.count limits value maximum context) (CountFits maximum value)
      (countBytes value) := by
  unfold Writer.count CountFits
  split
  · next hlarge =>
    apply (fail_writes _ _ _ (countBytes value)).congr
    · simp only [Bool.or_eq_true, decide_eq_true_eq] at hlarge
      constructor
      · exact False.elim
      · omega
    · intro _
      rfl
  · next hfits =>
    simp only [Bool.or_eq_true, decide_eq_true_eq] at hfits
    apply (append_writes (littleEndian 4 (UInt32.ofNat value).toNat)).congr
    · constructor
      · omega
      · intro _
        exact trivial
    · rintro ⟨_, hvalue⟩
      rw [UInt32.toNat_ofNat_of_lt' hvalue]
      rfl

theorem text_writes (value : Text) (context : String) :
    Writes limits.maximumWireBytes (Writer.text limits value context) (TextFits limits value)
      (textBytes value) := by
  apply (count_writes value.length limits.maximumTextScalars context).seq
  apply Writes.each
  intro scalar _
  split
  · next hnot =>
    apply (fail_writes _ _ _ (u32Bytes scalar)).congr
    · simp only [Bool.not_eq_true'] at hnot
      simp [hnot]
    · intro _
      rfl
  · next hscalar =>
    apply (append_writes (u32Bytes scalar)).congr
    · simpa using hscalar
    · intro _
      rfl

end Primitives

end Tala.Artifact.Wire
