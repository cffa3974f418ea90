import Mathlib.Data.List.Nodup
import Mathlib.Data.Set.List
import Tala.Diagnostic.ProtocolFacts
import Tala.Diagnostic.SyntaxProtocol

/-!
# `Diagnostic.ProtocolAgreement` — one protocol, two decoders

`DiagnosticDocument.native` is the native document that a document of the frontend stands for. The frontend's
decoder takes the bytes of that document and nothing else, and its validation asks what `RecordValid` asks; so
it accepts what the native decoder accepts and reads the same document.
-/

namespace Tala.Diagnostic.Syntax

open Tala Tala.Library Tala.Library.Codec Tala.Artifact
open Tala.Artifact.Wire (Text TextFits CountFits textBytes countBytes u32Bytes u16Bytes booleanByte)

/-! ## The native form of a document -/

def nativeText (value : String) : Text := value.toList.map Char.val

def DiagnosticStage.native (stage : DiagnosticStage) : Stage :=
  ⟨UInt8.ofNat (DiagnosticStage.all.idxOf stage)⟩

def ProtocolSeverity.native (severity : ProtocolSeverity) : Severity :=
  ⟨UInt8.ofNat (ProtocolSeverity.all.idxOf severity)⟩

def DiagnosticArgument.native (argument : DiagnosticArgument) : MessageArgument :=
  ⟨nativeText argument.argumentName, nativeText argument.argumentValue⟩

def DiagnosticLocation.native (location : DiagnosticLocation) : Location :=
  ⟨nativeText location.locationSource,
    ⟨⟨location.locationStartLine, location.locationStartColumn⟩,
      ⟨location.locationEndLine, location.locationEndColumn⟩⟩⟩

def DiagnosticRelatedLocation.native (related : DiagnosticRelatedLocation) : RelatedLocation :=
  ⟨related.relatedLocation.native, nativeText related.relatedMessage⟩

def DiagnosticTextEdit.native (edit : DiagnosticTextEdit) : TextEdit :=
  ⟨edit.editLocation.native, nativeText edit.editReplacement⟩

def DiagnosticFix.native (fix : DiagnosticFix) : Fix :=
  ⟨nativeText fix.fixTitle, fix.fixEdits.map DiagnosticTextEdit.native⟩

def DiagnosticRecord.native (record : DiagnosticRecord) : Record where
  stage := record.recordStage.native
  severity := record.recordSeverity.native
  code := nativeText record.recordCode
  message := nativeText record.recordMessage
  arguments := record.recordArguments.map DiagnosticArgument.native
  primary := record.recordPrimary.map DiagnosticLocation.native
  related := record.recordRelated.map DiagnosticRelatedLocation.native
  fixes := record.recordFixes.map DiagnosticFix.native

def DiagnosticDocument.native (document : DiagnosticDocument) : Document :=
  ⟨document.documentRecords.map DiagnosticRecord.native⟩

/-- The frontend's limits for native ones. -/
def frontendLimits (limits : Limits) : DiagnosticProtocolLimits where
  maximumWireBytes := limits.maximumWireBytes
  maximumRecords := limits.maximumRecords
  maximumTextScalars := limits.maximumTextScalars
  maximumArguments := limits.maximumArguments
  maximumRelatedLocations := limits.maximumRelatedLocations
  maximumFixes := limits.maximumFixes
  maximumEditsPerFix := limits.maximumEditsPerFix

theorem frontendLimits_default : frontendLimits defaultLimits = defaultDiagnosticProtocolLimits := rfl

/-! ## Words -/

/-- Octets that do not overlap are joined as they are added. -/
theorem or_shift {low high count : Nat} (h : low < 2 ^ count) :
    low ||| high <<< count = low + 2 ^ count * high := by
  rw [Nat.or_comm, ← Nat.shiftLeft_add_eq_or_of_lt h, Nat.shiftLeft_eq, Nat.mul_comm, Nat.add_comm]

theorem word16_join (a b : UInt8) : a.toUInt16 ||| b.toUInt16 <<< 8 = UInt16.ofNat (ofLittleEndian [a, b]) := by
  have ha := a.toNat_lt
  have hb := b.toNat_lt
  apply UInt16.toNat_inj.mp
  simp only [UInt16.toNat_or, UInt16.toNat_shiftLeft, UInt8.toNat_toUInt16, ofLittleEndian]
  rw [UInt16.toNat_ofNat_of_lt' (by show _ < 2 ^ 16; omega)]
  show a.toNat ||| b.toNat <<< 8 % 2 ^ 16 = _
  rw [Nat.mod_eq_of_lt (by omega), or_shift (by omega)]
  omega

theorem word32_join (a b c d : UInt8) :
    a.toUInt32 ||| b.toUInt32 <<< 8 ||| c.toUInt32 <<< 16 ||| d.toUInt32 <<< 24
      = UInt32.ofNat (ofLittleEndian [a, b, c, d]) := by
  have ha := a.toNat_lt
  have hb := b.toNat_lt
  have hc := c.toNat_lt
  have hd := d.toNat_lt
  apply UInt32.toNat_inj.mp
  simp only [UInt32.toNat_or, UInt32.toNat_shiftLeft, UInt8.toNat_toUInt32, ofLittleEndian]
  rw [UInt32.toNat_ofNat_of_lt' (by show _ < 2 ^ 32; omega)]
  show a.toNat ||| b.toNat <<< 8 % 2 ^ 32 ||| c.toNat <<< 16 % 2 ^ 32 ||| d.toNat <<< 24 % 2 ^ 32 = _
  rw [Nat.mod_eq_of_lt (by omega), Nat.mod_eq_of_lt (by omega), Nat.mod_eq_of_lt (by omega),
    @or_shift a.toNat b.toNat 8 (by omega), @or_shift _ c.toNat 16 (by omega),
    @or_shift _ d.toNat 24 (by omega)]
  omega

section Readers

variable (context : String)

include context

theorem byte_reads (value : UInt8) : Reads (byte context) [value] value := by
  intro rest offset
  rfl

theorem byte_yields : Yields (byte context) fun value items => items = [value] := by
  intro input value next hrun
  unfold byte at hrun
  split at hrun
  · cases hrun
  · next first rest hrest =>
    cases hrun
    exact ⟨[value], rfl, hrest⟩

theorem word16_octets (a b : UInt8) : Reads (word16 context) [a, b] (UInt16.ofNat (ofLittleEndian [a, b])) := by
  rw [← word16_join]
  exact (byte_reads context a).item ((byte_reads context b).item (Reads.pure _))

theorem word16_reads (value : UInt16) : Reads (word16 context) (u16Bytes value) value := by
  have hvalue := ofLittleEndian_littleEndian 2 value.toNat
  rw [Nat.mod_eq_of_lt (show _ < 256 ^ 2 from value.toNat_lt)] at hvalue
  have hread : Reads (word16 context) (littleEndian 2 value.toNat)
      (UInt16.ofNat (ofLittleEndian (littleEndian 2 value.toNat))) := word16_octets context _ _
  rwa [hvalue, UInt16.ofNat_toNat] at hread

theorem word16_yields : Yields (word16 context) fun value items => items = u16Bytes value := by
  apply (byte_yields context).bind
  rintro a _ rfl
  apply (byte_yields context).last
  rintro b _ rfl
  have hlt : ofLittleEndian [a, b] < 256 ^ 2 := ofLittleEndian_lt [a, b]
  rw [word16_join]
  unfold u16Bytes
  rw [UInt16.toNat_ofNat_of_lt' hlt]
  exact (littleEndian_ofLittleEndian [a, b]).symm

theorem word32_octets (a b c d : UInt8) :
    Reads (word32 context) [a, b, c, d] (UInt32.ofNat (ofLittleEndian [a, b, c, d])) := by
  rw [← word32_join]
  exact (byte_reads context a).item ((byte_reads context b).item ((byte_reads context c).item
    ((byte_reads context d).item (Reads.pure _))))

theorem word32_reads (value : UInt32) : Reads (word32 context) (u32Bytes value) value := by
  have hvalue := ofLittleEndian_littleEndian 4 value.toNat
  rw [Nat.mod_eq_of_lt (show _ < 256 ^ 4 from value.toNat_lt)] at hvalue
  have hread : Reads (word32 context) (littleEndian 4 value.toNat)
      (UInt32.ofNat (ofLittleEndian (littleEndian 4 value.toNat))) := word32_octets context _ _ _ _
  rwa [hvalue, UInt32.ofNat_toNat] at hread

theorem word32_yields : Yields (word32 context) fun value items => items = u32Bytes value := by
  apply (byte_yields context).bind
  rintro a _ rfl
  apply (byte_yields context).bind
  rintro b _ rfl
  apply (byte_yields context).bind
  rintro c _ rfl
  apply (byte_yields context).last
  rintro d _ rfl
  have hlt : ofLittleEndian [a, b, c, d] < 256 ^ 4 := ofLittleEndian_lt [a, b, c, d]
  rw [word32_join]
  unfold u32Bytes
  rw [UInt32.toNat_ofNat_of_lt' hlt]
  exact (littleEndian_ofLittleEndian [a, b, c, d]).symm

theorem boolean_reads (value : Bool) : Reads (boolean context) [booleanByte value] value := by
  cases value with
  | false => exact (byte_reads context 0).item (Reads.pure false)
  | true => exact (byte_reads context 1).item (Reads.pure true)

theorem boolean_yields : Yields (boolean context) fun value items => items = [booleanByte value] := by
  apply (byte_yields context).bind
  rintro value _ rfl
  split
  · exact Yields.pure rfl
  · exact Yields.pure rfl
  · exact Yields.fail _ _

variable {maximum : Nat}

theorem boundedCount_reads {value : Nat} (h : CountFits maximum value) :
    Reads (boundedCount context maximum) (countBytes value) value := by
  have hnat : (UInt32.ofNat value).toNat = value := UInt32.toNat_ofNat_of_lt' h.2
  have hword := word32_reads context (UInt32.ofNat value)
  unfold u32Bytes at hword
  rw [hnat] at hword
  have hread := @Reads.checked _ _ _ _ _ (fun word : UInt32 => decide ((word.toNat : Int) ≤ (maximum : Int)))
    (failDecoder context "collection count exceeds configured limit") UInt32.toNat _ _ hword
    (by rw [hnat]; exact decide_eq_true (Int.ofNat_le.mpr h.1))
  rwa [hnat] at hread

theorem boundedCount_yields (maximum : Nat) :
    Yields (boundedCount context maximum) fun value items =>
      CountFits maximum value ∧ items = countBytes value := by
  apply (word32_yields context).bind
  rintro value _ rfl
  apply Yields.require
  intro hvalue
  apply Yields.pure
  rw [List.append_nil]
  exact ⟨⟨Int.ofNat_le.mp (of_decide_eq_true hvalue), value.toNat_lt⟩, rfl⟩

end Readers

/-! ## Texts -/

theorem scalar_val (character : Char) :
    character.val.toNat ≤ 0x10ffff ∧ (character.val.toNat < 0xd800 ∨ 0xdfff < character.val.toNat) := by
  have hvalid : character.val.toNat < 0xd800 ∨ 0xdfff < character.val.toNat ∧ character.val.toNat < 0x110000 :=
    character.valid
  omega

theorem isUnicodeScalar_val (character : Char) : Wire.isUnicodeScalar character.val = true := by
  unfold Wire.isUnicodeScalar
  simp only [Bool.and_eq_true, Bool.or_eq_true, decide_eq_true_eq, UInt32.le_iff_toNat_le,
    UInt32.lt_iff_toNat_lt, gt_iff_lt]
  exact scalar_val character

theorem validScalar_val (character : Char) : validScalar character.val = true := by
  unfold validScalar
  simp only [Bool.and_eq_true, Bool.not_eq_true', Bool.and_eq_false_iff, decide_eq_true_eq, ge_iff_le,
    decide_eq_false_iff_not, UInt32.le_iff_toNat_le, not_le]
  exact scalar_val character

theorem val_ofNat {value : UInt32} (h : validScalar value = true) : (Char.ofNat value.toNat).val = value := by
  unfold validScalar at h
  simp only [Bool.and_eq_true, Bool.not_eq_true', Bool.and_eq_false_iff, decide_eq_true_eq, ge_iff_le,
    decide_eq_false_iff_not, UInt32.le_iff_toNat_le] at h
  have hbounds : value.toNat ≤ 0x10ffff ∧ (¬ 0xd800 ≤ value.toNat ∨ ¬ value.toNat ≤ 0xdfff) := h
  have hvalid : value.toNat.isValidChar := by
    show value.toNat < 0xd800 ∨ 0xdfff < value.toNat ∧ value.toNat < 0x110000
    omega
  apply UInt32.toNat_inj.mp
  unfold Char.ofNat
  rw [dif_pos hvalid]
  rfl

variable {value : String}

/-- A text of the frontend has scalars only. -/
theorem textFits_iff {limits : Wire.Limits} :
    TextFits limits (nativeText value) ↔ CountFits limits.maximumTextScalars value.toList.length := by
  unfold TextFits nativeText
  rw [List.length_map, List.forall_mem_map]
  constructor
  · intro h
    exact h.1
  · intro h
    exact ⟨h, fun character _ => isUnicodeScalar_val character⟩

section Agreement

variable {limits : Limits}

theorem text_reads (context : String) (h : TextFits (wireLimits limits) (nativeText value)) :
    Reads (text (frontendLimits limits) context) (textBytes (nativeText value)) value := by
  apply (boundedCount_reads context h.1).bind
  have hwords := @Reads.flatMap _ _ _ _ u32Bytes (word32 context) id (nativeText value)
    fun word _ => word32_reads context word
  rw [List.map_id] at hwords
  have hall : (nativeText value).all validScalar = true := by
    unfold nativeText
    rw [List.all_map]
    exact List.all_eq_true.mpr fun character _ => validScalar_val character
  have hvalue : String.ofList ((nativeText value).map fun word => Char.ofNat word.toNat) = value := by
    unfold nativeText
    rw [List.map_map]
    have hid : ((fun word : UInt32 => Char.ofNat word.toNat) ∘ Char.val) = id :=
      funext fun character => Char.ofNat_toNat character
    rw [hid, List.map_id, String.ofList_toList]
  have hread := @Reads.checked _ _ _ _ _ (fun words : List UInt32 => words.all validScalar)
    (failDecoder context "text contains a non-scalar Unicode value")
    (fun words => String.ofList (words.map fun word => Char.ofNat word.toNat)) _ _ hwords hall
  rwa [hvalue] at hread

theorem text_yields (context : String) :
    Yields (text (frontendLimits limits) context) fun value items =>
      TextFits (wireLimits limits) (nativeText value) ∧ items = textBytes (nativeText value) := by
  apply (boundedCount_yields context limits.maximumTextScalars).bind
  rintro count _ ⟨hcount, rfl⟩
  have hword : Yields (word32 context) fun value items => True ∧ items = u32Bytes value :=
    (word32_yields context).weaken fun _ _ h => ⟨trivial, h⟩
  apply (Yields.many hword count).bind
  rintro words _ ⟨rfl, _, rfl⟩
  apply Yields.require
  intro hall
  apply Yields.pure
  have hwords : nativeText (String.ofList (words.map fun word => Char.ofNat word.toNat)) = words := by
    unfold nativeText
    rw [String.toList_ofList, List.map_map]
    conv_rhs => rw [← List.map_id words]
    exact List.map_congr_left fun word hword => val_ofNat (List.all_eq_true.mp hall word hword)
  rw [textFits_iff, hwords, List.append_nil, String.toList_ofList, List.length_map]
  exact ⟨hcount, rfl⟩

/-! ## The parts of a document -/

variable {α : Type} {context : String}

/-- Values of a catalog are written as their place in it. -/
theorem catalog_reads [DecidableEq α] {all : List α} {value : α} (context : String)
    (failure : Nat → DiagnosticProtocolError) (hmem : value ∈ all) (hlength : all.length ≤ 256) :
    Reads (byte context >>= fun tag =>
      if h : tag.toNat < all.length then (pure (all.get ⟨tag.toNat, h⟩) : ProtocolDecoder α)
      else Decoder.fail failure) [UInt8.ofNat (all.idxOf value)] value := by
  have hindex : all.idxOf value < all.length := List.idxOf_lt_length_of_mem hmem
  have htag : (UInt8.ofNat (all.idxOf value)).toNat = all.idxOf value :=
    UInt8.toNat_ofNat_of_lt' (by show _ < 256; omega)
  apply (byte_reads context _).item
  rw [dif_pos (by rw [htag]; exact hindex)]
  have hget : all.get ⟨(UInt8.ofNat (all.idxOf value)).toNat, by rw [htag]; exact hindex⟩ = value := by
    rw [List.get_eq_getElem]
    simp only [htag]
    exact List.getElem_idxOf hindex
  rw [hget]
  exact Reads.pure value

theorem catalog_yields [DecidableEq α] {all : List α} (context : String)
    (failure : Nat → DiagnosticProtocolError) (hnodup : all.Nodup) :
    Yields (byte context >>= fun tag =>
      if h : tag.toNat < all.length then (pure (all.get ⟨tag.toNat, h⟩) : ProtocolDecoder α)
      else Decoder.fail failure) fun value items => items = [UInt8.ofNat (all.idxOf value)] := by
  apply (byte_yields context).bind
  rintro tag _ rfl
  split
  · next hindex =>
    apply Yields.pure
    rw [List.append_nil, List.get_eq_getElem, hnodup.idxOf_getElem, UInt8.ofNat_toNat]
  · exact Yields.fail _ _

theorem decodeStage_reads (stage : DiagnosticStage) : Reads decodeStage [stage.native.value] stage :=
  catalog_reads _ _ (by cases stage <;> decide) (by decide)

theorem decodeStage_yields : Yields decodeStage fun stage items => items = [stage.native.value] :=
  catalog_yields _ _ (by decide)

theorem decodeSeverity_reads (severity : ProtocolSeverity) :
    Reads decodeSeverity [severity.native.value] severity :=
  catalog_reads _ _ (by cases severity <;> decide) (by decide)

theorem decodeSeverity_yields : Yields decodeSeverity fun severity items => items = [severity.native.value] :=
  catalog_yields _ _ (by decide)

theorem validStage_native (stage : DiagnosticStage) : validStage stage.native = true := by
  cases stage <;> decide

theorem validSeverity_native (severity : ProtocolSeverity) : validSeverity severity.native = true := by
  cases severity <;> decide

variable {β : Type} {location : DiagnosticLocation} {argument : DiagnosticArgument}
  {primary : Option DiagnosticLocation} {related : DiagnosticRelatedLocation} {fix : DiagnosticFix}
  {record : DiagnosticRecord} {arguments : List DiagnosticArgument} {document : DiagnosticDocument}

/-- As many parts as were written, each in its native form. -/
theorem parts_reads {native : α → β} {fits : β → Prop} {encode : β → List UInt8}
    {decoder : ProtocolDecoder α} {values : List α}
    (h : ∀ value, fits (native value) → Reads decoder (encode (native value)) value)
    (hfits : ∀ part ∈ values.map native, fits part) :
    Reads (Decoder.many (values.map native).length decoder) ((values.map native).flatMap encode) values := by
  have hread := @Reads.flatMap _ _ _ _ (fun value => encode (native value)) decoder id values
    fun value hvalue => h value (List.forall_mem_map.mp hfits value hvalue)
  rwa [List.map_id, ← List.flatMap_map, ← List.length_map native] at hread

theorem parts_yields {native : α → β} {fits : β → Prop} {encode : β → List UInt8} {decoder : ProtocolDecoder α}
    (h : Yields decoder fun value items => fits (native value) ∧ items = encode (native value)) (count : Nat) :
    Yields (Decoder.many count decoder) fun values items =>
      (values.map native).length = count ∧ (∀ part ∈ values.map native, fits part) ∧
        items = (values.map native).flatMap encode := by
  apply (Yields.many h count).weaken
  rintro values _ ⟨rfl, hfits, rfl⟩
  rw [List.flatMap_map]
  exact ⟨List.length_map native, List.forall_mem_map.mpr hfits, rfl⟩

theorem decodeLocation_reads (h : LocationFits limits location.native) :
    Reads (decodeLocation (frontendLimits limits)) (locationBytes location.native) location :=
  (text_reads _ h).bind ((word32_reads _ _).bind ((word32_reads _ _).bind ((word32_reads _ _).bind
    (word32_reads _ _).last)))

theorem decodeLocation_yields :
    Yields (decodeLocation (frontendLimits limits)) fun location items =>
      LocationFits limits location.native ∧ items = locationBytes location.native := by
  apply (text_yields "diagnostic source").bind
  rintro source _ ⟨hsource, rfl⟩
  apply (word32_yields _).bind
  rintro startLine _ rfl
  apply (word32_yields _).bind
  rintro startColumn _ rfl
  apply (word32_yields _).bind
  rintro endLine _ rfl
  apply (word32_yields _).last
  rintro endColumn _ rfl
  exact ⟨hsource, rfl⟩

theorem decodeArgument_reads (h : ArgumentFits limits argument.native) :
    Reads (decodeArgument (frontendLimits limits)) (argumentBytes argument.native) argument :=
  (text_reads _ h.1).bind (text_reads _ h.2).last

theorem decodeArgument_yields :
    Yields (decodeArgument (frontendLimits limits)) fun argument items =>
      ArgumentFits limits argument.native ∧ items = argumentBytes argument.native := by
  apply (text_yields _).bind
  rintro name _ ⟨hname, rfl⟩
  apply (text_yields _).last
  rintro value _ ⟨hvalue, rfl⟩
  exact ⟨⟨hname, hvalue⟩, rfl⟩

theorem decodePrimary_reads (h : ∀ location ∈ primary.map DiagnosticLocation.native, LocationFits limits location) :
    Reads (decodePrimary (frontendLimits limits)) (primaryBytes (primary.map DiagnosticLocation.native))
      primary := by
  cases primary with
  | none => exact (boolean_reads _ false).item (Reads.pure none)
  | some location => exact (boolean_reads _ true).item (decodeLocation_reads (h _ rfl)).last

theorem decodePrimary_yields :
    Yields (decodePrimary (frontendLimits limits)) fun primary items =>
      (∀ location ∈ primary.map DiagnosticLocation.native, LocationFits limits location) ∧
        items = primaryBytes (primary.map DiagnosticLocation.native) := by
  apply (boolean_yields _).bind
  rintro present _ rfl
  cases present with
  | false =>
      apply Yields.pure
      constructor
      · intro location hlocation
        cases hlocation
      · rfl
  | true =>
      apply decodeLocation_yields.last
      rintro location _ ⟨hlocation, rfl⟩
      refine ⟨fun other hother => ?_, rfl⟩
      cases hother
      exact hlocation

theorem decodeRelated_reads (h : RelatedFits limits related.native) :
    Reads (decodeRelated (frontendLimits limits)) (relatedBytes related.native) related :=
  (decodeLocation_reads h.1).bind (text_reads _ h.2).last

theorem decodeRelated_yields :
    Yields (decodeRelated (frontendLimits limits)) fun related items =>
      RelatedFits limits related.native ∧ items = relatedBytes related.native := by
  apply decodeLocation_yields.bind
  rintro location _ ⟨hlocation, rfl⟩
  apply (text_yields _).last
  rintro message _ ⟨hmessage, rfl⟩
  exact ⟨⟨hlocation, hmessage⟩, rfl⟩

theorem decodeEdit_reads {edit : DiagnosticTextEdit} (h : EditFits limits edit.native) :
    Reads (decodeEdit (frontendLimits limits)) (editBytes edit.native) edit :=
  (decodeLocation_reads h.1).bind (text_reads _ h.2).last

theorem decodeEdit_yields :
    Yields (decodeEdit (frontendLimits limits)) fun edit items =>
      EditFits limits edit.native ∧ items = editBytes edit.native := by
  apply decodeLocation_yields.bind
  rintro location _ ⟨hlocation, rfl⟩
  apply (text_yields _).last
  rintro replacement _ ⟨hreplacement, rfl⟩
  exact ⟨⟨hlocation, hreplacement⟩, rfl⟩

theorem decodeFix_reads (h : FixFits limits fix.native) :
    Reads (decodeFix (frontendLimits limits)) (fixBytes fix.native) fix := by
  obtain ⟨htitle, hcount, hedits⟩ := h
  exact (text_reads _ htitle).bind ((boundedCount_reads _ hcount).bind
    (parts_reads (fun _ => decodeEdit_reads) hedits).last)

theorem decodeFix_yields :
    Yields (decodeFix (frontendLimits limits)) fun fix items =>
      FixFits limits fix.native ∧ items = fixBytes fix.native := by
  apply (text_yields _).bind
  rintro title _ ⟨htitle, rfl⟩
  apply (boundedCount_yields _ _).bind
  rintro count _ ⟨hcount, rfl⟩
  apply (parts_yields decodeEdit_yields count).last
  rintro edits _ ⟨rfl, hedits, rfl⟩
  exact ⟨⟨htitle, hcount, hedits⟩, rfl⟩

theorem decodeRecord_reads (h : RecordFits limits record.native) :
    Reads (decodeRecord (frontendLimits limits)) (recordBytes record.native) record := by
  obtain ⟨hcode, hmessage, hargumentCount, harguments, hprimary, hrelatedCount, hrelated, hfixCount, hfixes⟩ := h
  exact (decodeStage_reads record.recordStage).item ((decodeSeverity_reads record.recordSeverity).item
    ((text_reads _ hcode).bind ((text_reads _ hmessage).bind ((boundedCount_reads _ hargumentCount).bind
      ((parts_reads (fun _ => decodeArgument_reads) harguments).bind ((decodePrimary_reads hprimary).bind
        ((boundedCount_reads _ hrelatedCount).bind ((parts_reads (fun _ => decodeRelated_reads) hrelated).bind
          ((boundedCount_reads _ hfixCount).bind
            (parts_reads (fun _ => decodeFix_reads) hfixes).last)))))))))

theorem decodeRecord_yields :
    Yields (decodeRecord (frontendLimits limits)) fun record items =>
      RecordFits limits record.native ∧ items = recordBytes record.native := by
  apply decodeStage_yields.bind
  rintro stage _ rfl
  apply decodeSeverity_yields.bind
  rintro severity _ rfl
  apply (text_yields _).bind
  rintro code _ ⟨hcode, rfl⟩
  apply (text_yields _).bind
  rintro message _ ⟨hmessage, rfl⟩
  apply (boundedCount_yields _ _).bind
  rintro argumentCount _ ⟨hargumentCount, rfl⟩
  apply (parts_yields decodeArgument_yields argumentCount).bind
  rintro arguments _ ⟨rfl, harguments, rfl⟩
  apply decodePrimary_yields.bind
  rintro primary _ ⟨hprimary, rfl⟩
  apply (boundedCount_yields _ _).bind
  rintro relatedCount _ ⟨hrelatedCount, rfl⟩
  apply (parts_yields decodeRelated_yields relatedCount).bind
  rintro related _ ⟨rfl, hrelated, rfl⟩
  apply (boundedCount_yields _ _).bind
  rintro fixCount _ ⟨hfixCount, rfl⟩
  apply (parts_yields decodeFix_yields fixCount).last
  rintro fixes _ ⟨rfl, hfixes, rfl⟩
  exact ⟨⟨hcode, hmessage, hargumentCount, harguments, hprimary, hrelatedCount, hrelated, hfixCount, hfixes⟩,
    rfl⟩

/-- What is asked of a document before its records are validated. -/
def DocumentFitsWire (limits : Limits) (document : Document) : Prop :=
  CountFits limits.maximumRecords document.records.length ∧
    ∀ record ∈ document.records, RecordFits limits record

theorem decodeDocument_reads {document : DiagnosticDocument} (h : DocumentFitsWire limits document.native) :
    Reads (decodeDocument (frontendLimits limits)) (documentBytes document.native) document := by
  have hmagic : Reads (Decoder.many 4 (byte "magic")) Diagnostic.magic Diagnostic.magic :=
    @Reads.flatMap _ _ _ _ (fun octet => [octet]) (byte "magic") id Diagnostic.magic
      fun octet _ => byte_reads _ octet
  exact hmagic.bind ((Reads.require _ rfl).step ((word16_reads _ _).bind ((Reads.require _ (by simp; rfl)).step
    ((word16_reads _ _).bind ((Reads.require _ (by simp)).step ((boundedCount_reads _ h.1).bind
      (parts_reads (fun _ => decodeRecord_reads) h.2).last))))))

theorem decodeDocument_yields :
    Yields (decodeDocument (frontendLimits limits)) fun document items =>
      DocumentFitsWire limits document.native ∧ items = documentBytes document.native := by
  have hoctet : Yields (byte "magic") fun value items => True ∧ items = [value] :=
    (byte_yields _).weaken fun _ _ h => ⟨trivial, h⟩
  apply (Yields.many hoctet 4).bind
  rintro observed _ ⟨_, _, rfl⟩
  apply Yields.require
  intro hmagic
  obtain rfl := of_decide_eq_true hmagic
  apply (word16_yields _).bind
  rintro version _ rfl
  apply Yields.require
  intro hversion
  obtain rfl := of_decide_eq_true hversion
  apply (word16_yields _).bind
  rintro flags _ rfl
  apply Yields.require
  intro hflags
  obtain rfl := of_decide_eq_true hflags
  apply (boundedCount_yields _ _).bind
  rintro count _ ⟨hcount, rfl⟩
  apply (parts_yields decodeRecord_yields count).last
  rintro records _ ⟨rfl, hrecords, rfl⟩
  exact ⟨⟨hcount, hrecords⟩, rfl⟩

/-! ## Validation -/

theorem seq_eq_ok {check next : Check} : (check >>= fun _ => next) = .ok () ↔ check = .ok () ∧ next = .ok () := by
  rw [bind_eq_ok]
  constructor
  · rintro ⟨⟨⟩, hcheck, hnext⟩
    exact ⟨hcheck, hnext⟩
  · rintro ⟨hcheck, hnext⟩
    exact ⟨(), hcheck, hnext⟩

theorem failWhen_eq_ok {condition : Bool} {error : DiagnosticProtocolError} :
    failWhen condition error = .ok () ↔ condition = false := by
  cases condition <;> simp [failWhen]

theorem checkEach_eq_ok {check : α → Check} {values : List α} :
    checkEach check values = .ok () ↔ ∀ value ∈ values, check value = .ok () := by
  induction values with
  | nil => simp [checkEach]
  | cons value values ih =>
      unfold checkEach
      rw [seq_eq_ok, ih, List.forall_mem_cons]

theorem validateCount_eq_ok {maximum value : Nat} :
    validateCount context maximum value = .ok () ↔ CountFits maximum value := by
  unfold validateCount CountFits
  rw [failWhen_eq_ok]
  simp only [Bool.or_eq_false_iff, decide_eq_false_iff_not]
  omega

theorem validateText_eq_ok :
    validateText (frontendLimits limits) context value = .ok () ↔
      TextFits (wireLimits limits) (nativeText value) := by
  have hscalars : value.toList.all isUnicodeScalar = true := by
    apply List.all_eq_true.mpr
    intro character _
    have hvalid := character.valid
    unfold isUnicodeScalar
    simp only [Bool.and_eq_true, Bool.not_eq_true', Bool.and_eq_false_iff, decide_eq_true_eq, ge_iff_le,
      decide_eq_false_iff_not]
    show character.val.toNat ≤ 0x10ffff ∧ (¬ 0xd800 ≤ character.val.toNat ∨ ¬ character.val.toNat ≤ 0xdfff)
    have hcases : character.val.toNat < 0xd800 ∨ 0xdfff < character.val.toNat ∧ character.val.toNat < 0x110000 :=
      hvalid
    omega
  unfold validateText
  rw [seq_eq_ok, failWhen_eq_ok, hscalars, textFits_iff]
  have hcount : validateCount context (frontendLimits limits).maximumTextScalars value.toList.length = .ok () ↔ _ :=
    validateCount_eq_ok
  rw [hcount]
  simp [wireLimits]

theorem nubAfter_length [DecidableEq α] (seen values : List α) :
    (nubAfter seen values).length ≤ values.length ∧
      ((nubAfter seen values).length = values.length ↔ values.Nodup ∧ ∀ value ∈ values, value ∉ seen) := by
  induction values generalizing seen with
  | nil => simp [nubAfter]
  | cons value values ih =>
      unfold nubAfter
      rw [List.forall_mem_cons]
      split
      · next hseen =>
        have hle := (ih seen).1
        rw [List.length_cons]
        refine ⟨by omega, ?_⟩
        constructor
        · intro h
          omega
        · rintro ⟨_, hnew, _⟩
          exact (hnew hseen).elim
      · next hnew =>
        obtain ⟨hle, hiff⟩ := ih (value :: seen)
        rw [List.length_cons, List.length_cons, Nat.add_right_cancel_iff, hiff, List.nodup_cons]
        refine ⟨by omega, ?_⟩
        simp only [List.mem_cons, not_or]
        constructor
        · rintro ⟨hnodup, hothers⟩
          exact ⟨⟨fun hmem => (hothers value hmem).1 rfl, hnodup⟩, hnew, fun other h => (hothers other h).2⟩
        · rintro ⟨⟨hdistinct, hnodup⟩, _, hothers⟩
          refine ⟨hnodup, fun other hother => ⟨?_, hothers other hother⟩⟩
          rintro rfl
          exact hdistinct hother

theorem nub_length [DecidableEq α] {values : List α} : values.length = (nub values).length ↔ values.Nodup := by
  rw [eq_comm, nub, (nubAfter_length [] values).2]
  simp

theorem nativeText_injective : Function.Injective nativeText := by
  intro left right h
  apply String.toList_inj.mp
  exact List.map_injective_iff.mpr (fun _ _ h => Char.ext h) h

theorem nativeText_ne_nil : nativeText value ≠ [] ↔ value.toList.isEmpty = false := by
  unfold nativeText
  rw [List.isEmpty_eq_false_iff, ne_eq, List.map_eq_nil_iff]

theorem validCode_native (code : String) : Diagnostic.validCode (nativeText code) = validCode code := by
  have hcharacter : ∀ character : Char, validCodeScalar character.val
      = (isAsciiUpper character || isDigit character || decide (character = '-')) := by
    intro character
    have hhyphen : decide (character = '-') = decide (character.val = 45) := by
      rw [decide_eq_decide]
      exact Char.ext_iff
    unfold validCodeScalar isAsciiUpper isDigit
    rw [hhyphen]
    rfl
  unfold Diagnostic.validCode validCode nativeText
  rw [List.all_map, List.length_map, List.isEmpty_map]
  have hall : (validCodeScalar ∘ Char.val) = fun character =>
      isAsciiUpper character || isDigit character || decide (character = '-') := funext hcharacter
  rw [hall]
  by_cases hempty : code.toList.isEmpty = true
  · simp [hempty]
  · by_cases hlong : code.toList.length > 64
    · simp [hempty, hlong]
    · simp [hempty, hlong, Nat.le_of_not_lt hlong]

theorem validateLocation_eq_ok :
    validateLocation (frontendLimits limits) context location = .ok () ↔
      LocationValid location.native ∧ LocationFits limits location.native := by
  unfold validateLocation
  rw [seq_eq_ok, seq_eq_ok, failWhen_eq_ok, validateText_eq_ok, failWhen_eq_ok, Bool.not_eq_false',
    ← nativeText_ne_nil]
  constructor
  · rintro ⟨hsource, hfits, hrange⟩
    exact ⟨⟨hsource, hrange⟩, hfits⟩
  · rintro ⟨⟨hsource, hrange⟩, hfits⟩
    exact ⟨hsource, hfits, hrange⟩

theorem validateFix_eq_ok (h : FixFits limits fix.native) :
    validateFix (frontendLimits limits) fix = .ok () ↔ FixValid limits fix.native := by
  obtain ⟨htitle, hcount, hedits⟩ := h
  have hedits' : ∀ edit ∈ fix.fixEdits, EditFits limits edit.native := List.forall_mem_map.mp hedits
  have hedit : ∀ edit ∈ fix.fixEdits, (validateEdit (frontendLimits limits) edit = .ok () ↔
      LocationValid edit.editLocation.native) := by
    intro edit hmem
    unfold validateEdit
    rw [seq_eq_ok, validateLocation_eq_ok, validateText_eq_ok]
    have hfits := hedits' edit hmem
    exact ⟨fun h => h.1.1, fun h => ⟨⟨h, hfits.1⟩, hfits.2⟩⟩
  have hlength : (fix.fixEdits.map DiagnosticTextEdit.native).length = fix.fixEdits.length :=
    List.length_map _
  have hcount' : validateCount "diagnostic edit count" (frontendLimits limits).maximumEditsPerFix
      fix.fixEdits.length = .ok () := validateCount_eq_ok.mpr (hlength ▸ hcount)
  have htext : validateText (frontendLimits limits) "diagnostic fix title" fix.fixTitle = .ok () :=
    validateText_eq_ok.mpr htitle
  unfold validateFix
  rw [seq_eq_ok, seq_eq_ok, seq_eq_ok, seq_eq_ok, failWhen_eq_ok, failWhen_eq_ok, htext, hcount',
    checkEach_eq_ok, ← nativeText_ne_nil, List.isEmpty_eq_false_iff]
  constructor
  · rintro ⟨hname, hsome, _, _, hall⟩
    exact ⟨hname, fun hnil => hsome (List.map_eq_nil_iff.mp hnil), hcount.1,
      List.forall_mem_map.mpr fun edit hmem => (hedit edit hmem).mp (hall edit hmem)⟩
  · rintro ⟨hname, hsome, _, hall⟩
    exact ⟨hname, fun hnil => hsome (List.map_eq_nil_iff.mpr hnil), rfl, rfl, fun edit hmem =>
      (hedit edit hmem).mpr (List.forall_mem_map.mp hall edit hmem)⟩

theorem validateRelated_eq_ok (h : RelatedFits limits related.native) :
    validateRelated (frontendLimits limits) related = .ok () ↔
      related.native.message ≠ [] ∧ LocationValid related.native.location := by
  unfold validateRelated
  rw [seq_eq_ok, seq_eq_ok, validateLocation_eq_ok, failWhen_eq_ok, validateText_eq_ok, ← nativeText_ne_nil]
  constructor
  · rintro ⟨⟨hlocation, _⟩, hmessage, _⟩
    exact ⟨hmessage, hlocation⟩
  · rintro ⟨hmessage, hlocation⟩
    exact ⟨⟨hlocation, h.1⟩, hmessage, h.2⟩

theorem argumentNames_native :
    (arguments.map DiagnosticArgument.argumentName).any (fun name => name.toList.isEmpty) = false ↔
      ∀ argument ∈ arguments.map DiagnosticArgument.native, argument.name ≠ [] := by
  rw [List.any_map, List.any_eq_false, List.forall_mem_map]
  apply forall₂_congr
  intro argument _
  show ¬ argument.argumentName.toList.isEmpty = true ↔ nativeText argument.argumentName ≠ []
  rw [nativeText_ne_nil, Bool.not_eq_true]

theorem argumentsDistinct_native :
    (arguments.map DiagnosticArgument.argumentName).Nodup ↔
      ((arguments.map DiagnosticArgument.native).map MessageArgument.name).Nodup := by
  rw [← List.nodup_map_iff nativeText_injective, List.map_map, List.map_map]
  rfl

theorem validatePrimary_eq_ok
    (h : ∀ location ∈ primary.map DiagnosticLocation.native, LocationFits limits location) :
    checkEach (validateLocation (frontendLimits limits) "primary location") primary.toList = .ok () ↔
      ∀ location ∈ primary.map DiagnosticLocation.native, LocationValid location := by
  rw [checkEach_eq_ok]
  cases primary with
  | none => simp
  | some location => simp [validateLocation_eq_ok, h location.native rfl]

/-- Parts of a record, each validated as its native form. -/
theorem checkEach_native {α β : Type} {native : α → β} {fits valid : β → Prop} {check : α → Check}
    {values : List α} (h : ∀ value, fits (native value) → (check value = .ok () ↔ valid (native value)))
    (hfits : ∀ part ∈ values.map native, fits part) :
    checkEach check values = .ok () ↔ ∀ part ∈ values.map native, valid part := by
  rw [checkEach_eq_ok, List.forall_mem_map]
  exact forall₂_congr fun value hvalue => h value (List.forall_mem_map.mp hfits value hvalue)

theorem validateCount_native {native : α → β} {maximum : Nat} {values : List α} :
    validateCount context maximum values.length = .ok () ↔ CountFits maximum (values.map native).length := by
  rw [validateCount_eq_ok, List.length_map]

theorem validateArgument_eq_ok :
    validateArgument (frontendLimits limits) argument = .ok () ↔ ArgumentFits limits argument.native := by
  unfold validateArgument
  rw [seq_eq_ok, validateText_eq_ok, validateText_eq_ok]
  rfl

/-- The frontend validates a record that was read as the native decoder does. -/
theorem validateRecord_eq_ok (h : RecordFits limits record.native) :
    validateRecord (frontendLimits limits) record = .ok () ↔ RecordValid limits record.native := by
  obtain ⟨hcode, hmessage, hargumentCount, harguments, hprimary, hrelatedCount, hrelated, hfixCount, hfixes⟩ := h
  -- what the decoder has asked already
  have hcode' : validateText (frontendLimits limits) "diagnostic code" record.recordCode = .ok () :=
    validateText_eq_ok.mpr hcode
  have hmessage' : validateText (frontendLimits limits) "diagnostic message" record.recordMessage = .ok () :=
    validateText_eq_ok.mpr hmessage
  have hargumentCount' : validateCount "diagnostic argument count" (frontendLimits limits).maximumArguments
      record.recordArguments.length = .ok () := validateCount_native.mpr hargumentCount
  have hrelatedCount' : validateCount "related location count" (frontendLimits limits).maximumRelatedLocations
      record.recordRelated.length = .ok () := validateCount_native.mpr hrelatedCount
  have hfixCount' : validateCount "diagnostic fix count" (frontendLimits limits).maximumFixes
      record.recordFixes.length = .ok () := validateCount_native.mpr hfixCount
  have hchecked : checkEach (validateArgument (frontendLimits limits)) record.recordArguments = .ok () :=
    (checkEach_native (fun _ _ => validateArgument_eq_ok) harguments).mpr harguments
  have hvalidRelated := @checkEach_native _ _ _ _
    (fun related : RelatedLocation => related.message ≠ [] ∧ LocationValid related.location) _ _
    (fun _ => validateRelated_eq_ok) hrelated
  have hvalidFixes := checkEach_native (fun _ => validateFix_eq_ok) hfixes
  unfold validateRecord
  dsimp only
  rw [hcode', hmessage', hargumentCount', hrelatedCount', hfixCount', hchecked]
  simp only [seq_eq_ok, failWhen_eq_ok, Bool.not_eq_false', true_and, decide_eq_false_iff_not, not_not,
    ne_eq, nub_length, argumentNames_native, argumentsDistinct_native, validatePrimary_eq_ok hprimary,
    hvalidRelated, hvalidFixes, ← nativeText_ne_nil, ← validCode_native]
  constructor
  · rintro ⟨hvalid, htext, hnames, hdistinct, hprimary', hrelated', hfixes'⟩
    exact ⟨validStage_native _, validSeverity_native _, hvalid, htext, hargumentCount.1, hrelatedCount.1, hfixCount.1, hnames, hdistinct,
      hprimary', hrelated', hfixes'⟩
  · intro h
    exact ⟨h.code, h.message, h.argumentNames, h.argumentsDistinct, h.primary, h.related, h.fixes⟩

/-- A document that was read is validated by the frontend as its records are by the native decoder. -/
theorem validateDocument_eq_ok (h : DocumentFitsWire limits document.native) :
    validateDocument (frontendLimits limits) document = .ok () ↔ DocumentFits limits document.native := by
  have hcount : validateCount "diagnostic count" (frontendLimits limits).maximumRecords
      document.documentRecords.length = .ok () := validateCount_native.mpr h.1
  unfold validateDocument
  rw [hcount, seq_eq_ok, checkEach_native (fun _ => validateRecord_eq_ok) h.2]
  constructor
  · rintro ⟨_, hvalid⟩
    exact ⟨h.1, fun record hmem => ⟨h.2 record hmem, validateRecord_iff.mpr (hvalid record hmem)⟩⟩
  · intro hfits
    exact ⟨rfl, fun record hmem => validateRecord_iff.mp (hfits.2 record hmem).2⟩

/-- The frontend decodes the documents whose native form the native decoder reads from the same bytes. -/
theorem decodeDiagnosticDocument_iff {bytes : List UInt8} :
    decodeDiagnosticDocument (frontendLimits limits) bytes = .ok document ↔
      decode limits bytes = .ok document.native := by
  rw [decode_iff]
  unfold decodeDiagnosticDocument
  split
  · next hlarge =>
    have hlarge' : (bytes.length : Int) > (limits.maximumWireBytes : Int) := hlarge
    constructor
    · intro h
      cases h
    · rintro ⟨_, _, hlength⟩
      omega
  · next hlength =>
    have hlength' : bytes.length ≤ limits.maximumWireBytes := by
      have : ¬ (bytes.length : Int) > (limits.maximumWireBytes : Int) := hlength
      omega
    constructor
    · intro h
      split at h
      · cases h
      · next found state hread =>
        obtain ⟨items, ⟨hfits, rfl⟩, hbytes⟩ := decodeDocument_yields _ _ _ hread
        -- the offset reached is the length of what was taken
        have hagain := decodeDocument_reads hfits state.rest 0
        rw [← show bytes = _ from hbytes, hread] at hagain
        have hstate := congrArg Prod.snd (Except.ok.inj hagain)
        split at h
        · cases h
        · next hend =>
          split at h
          · cases h
          · next hvalid =>
            cases h
            have hoffset : state.offset = (documentBytes document.native).length := by
              rw [show state = _ from hstate, Nat.zero_add]
            have hrest : state.rest = [] := by
              have hlengths := congrArg List.length (show bytes = _ from hbytes)
              rw [List.length_append] at hlengths
              apply List.eq_nil_of_length_eq_zero
              omega
            refine ⟨(validateDocument_eq_ok hfits).mp hvalid, ?_, hlength'⟩
            rw [show bytes = _ from hbytes, hrest, List.append_nil]
    · rintro ⟨hfits, rfl, _⟩
      have hwire : DocumentFitsWire limits document.native :=
        ⟨hfits.1, fun record hmem => (hfits.2 record hmem).1⟩
      rw [(decodeDocument_reads hwire).run]
      dsimp only
      rw [if_neg (by simp), (validateDocument_eq_ok hwire).mpr hfits]

end Agreement

/-! ## One document -/

/-- What the same items are read as is the same. -/
theorem reads_unique {α : Type} {decoder : ProtocolDecoder α} {items : List UInt8} {value value' : α}
    (h : Reads decoder items value) (h' : Reads decoder items value') : value = value' := by
  have hrun := h [] 0
  rw [h' [] 0] at hrun
  exact (congrArg Prod.fst (Except.ok.inj hrun)).symm

theorem DiagnosticStage.native_injective : Function.Injective DiagnosticStage.native := by
  intro left right h
  have hread := decodeStage_reads left
  rw [h] at hread
  exact reads_unique hread (decodeStage_reads right)

theorem ProtocolSeverity.native_injective : Function.Injective ProtocolSeverity.native := by
  intro left right h
  have hread := decodeSeverity_reads left
  rw [h] at hread
  exact reads_unique hread (decodeSeverity_reads right)

theorem DiagnosticArgument.native_injective : Function.Injective DiagnosticArgument.native := by
  rintro ⟨name, value⟩ ⟨name', value'⟩ h
  obtain ⟨hname, hvalue⟩ := MessageArgument.mk.inj h
  exact congrArg₂ DiagnosticArgument.mk (nativeText_injective hname) (nativeText_injective hvalue)

theorem DiagnosticLocation.native_injective : Function.Injective DiagnosticLocation.native := by
  rintro ⟨source, startLine, startColumn, endLine, endColumn⟩ ⟨source', _, _, _, _⟩ h
  obtain ⟨hsource, hrange⟩ := Location.mk.inj h
  cases hrange
  rw [DiagnosticLocation.mk.injEq]
  exact ⟨nativeText_injective hsource, rfl, rfl, rfl, rfl⟩

theorem DiagnosticRelatedLocation.native_injective : Function.Injective DiagnosticRelatedLocation.native := by
  rintro ⟨location, message⟩ ⟨location', message'⟩ h
  obtain ⟨hlocation, hmessage⟩ := RelatedLocation.mk.inj h
  exact congrArg₂ DiagnosticRelatedLocation.mk (DiagnosticLocation.native_injective hlocation)
    (nativeText_injective hmessage)

theorem DiagnosticTextEdit.native_injective : Function.Injective DiagnosticTextEdit.native := by
  rintro ⟨location, replacement⟩ ⟨location', replacement'⟩ h
  obtain ⟨hlocation, hreplacement⟩ := TextEdit.mk.inj h
  exact congrArg₂ DiagnosticTextEdit.mk (DiagnosticLocation.native_injective hlocation)
    (nativeText_injective hreplacement)

theorem DiagnosticFix.native_injective : Function.Injective DiagnosticFix.native := by
  rintro ⟨title, edits⟩ ⟨title', edits'⟩ h
  obtain ⟨htitle, hedits⟩ := Fix.mk.inj h
  exact congrArg₂ DiagnosticFix.mk (nativeText_injective htitle)
    (DiagnosticTextEdit.native_injective.list_map hedits)

theorem DiagnosticRecord.native_injective : Function.Injective DiagnosticRecord.native := by
  rintro ⟨stage, severity, code, message, arguments, primary, related, fixes⟩ ⟨_, _, _, _, _, _, _, _⟩ h
  obtain ⟨hstage, hseverity, hcode, hmessage, harguments, hprimary, hrelated, hfixes⟩ := Record.mk.inj h
  rw [DiagnosticRecord.mk.injEq]
  exact ⟨DiagnosticStage.native_injective hstage, ProtocolSeverity.native_injective hseverity,
    nativeText_injective hcode, nativeText_injective hmessage,
    DiagnosticArgument.native_injective.list_map harguments,
    Option.map_injective DiagnosticLocation.native_injective hprimary,
    DiagnosticRelatedLocation.native_injective.list_map hrelated,
    DiagnosticFix.native_injective.list_map hfixes⟩

theorem DiagnosticDocument.native_injective : Function.Injective DiagnosticDocument.native := by
  rintro ⟨records⟩ ⟨records'⟩ h
  exact congrArg DiagnosticDocument.mk (DiagnosticRecord.native_injective.list_map (Document.mk.inj h))

section Native

variable {limits : Limits}

/-! ### Every native document that fits is one of the frontend -/

theorem exists_nativeText {text : Text} (h : TextFits (wireLimits limits) text) :
    ∃ value, nativeText value = text := by
  obtain ⟨characters, hcharacters⟩ : text ∈ Set.range (List.map Char.val) := by
    rw [Set.range_list_map]
    intro word hword
    have hvalid : validScalar word = true := by
      have hscalar := h.2 word hword
      unfold Wire.isUnicodeScalar at hscalar
      unfold validScalar
      simp only [Bool.and_eq_true, Bool.or_eq_true, Bool.not_eq_true', Bool.and_eq_false_iff, decide_eq_true_eq,
        decide_eq_false_iff_not, UInt32.le_iff_toNat_le, UInt32.lt_iff_toNat_lt, ge_iff_le,
        gt_iff_lt] at hscalar ⊢
      omega
    exact ⟨Char.ofNat word.toNat, val_ofNat hvalid⟩
  refine ⟨String.ofList characters, ?_⟩
  unfold nativeText
  rw [String.toList_ofList, hcharacters]

theorem exists_nativeParts {α β : Type} {native : α → β} {fits : β → Prop}
    (h : ∀ part, fits part → ∃ value, native value = part) {parts : List β} (hfits : ∀ part ∈ parts, fits part) :
    ∃ values : List α, values.map native = parts := by
  have hrange : parts ∈ Set.range (List.map native) := by
    rw [Set.range_list_map]
    exact fun part hpart => h part (hfits part hpart)
  exact hrange

theorem exists_nativeLocation (location : Location) (h : LocationFits limits location) :
    ∃ value, DiagnosticLocation.native value = location := by
  obtain ⟨source, hsource⟩ := exists_nativeText h
  refine ⟨⟨source, location.range.start.line, location.range.start.column, location.range.stop.line,
    location.range.stop.column⟩, ?_⟩
  unfold DiagnosticLocation.native
  rw [hsource]

theorem exists_nativeArgument (argument : MessageArgument) (h : ArgumentFits limits argument) :
    ∃ value, DiagnosticArgument.native value = argument := by
  obtain ⟨name, hname⟩ := exists_nativeText h.1
  obtain ⟨value, hvalue⟩ := exists_nativeText h.2
  refine ⟨⟨name, value⟩, ?_⟩
  unfold DiagnosticArgument.native
  rw [hname, hvalue]

theorem exists_nativeRelated (related : RelatedLocation) (h : RelatedFits limits related) :
    ∃ value, DiagnosticRelatedLocation.native value = related := by
  obtain ⟨location, hlocation⟩ := exists_nativeLocation related.location h.1
  obtain ⟨message, hmessage⟩ := exists_nativeText h.2
  refine ⟨⟨location, message⟩, ?_⟩
  unfold DiagnosticRelatedLocation.native
  rw [hlocation, hmessage]

theorem exists_nativeEdit (edit : TextEdit) (h : EditFits limits edit) :
    ∃ value, DiagnosticTextEdit.native value = edit := by
  obtain ⟨location, hlocation⟩ := exists_nativeLocation edit.location h.1
  obtain ⟨replacement, hreplacement⟩ := exists_nativeText h.2
  refine ⟨⟨location, replacement⟩, ?_⟩
  unfold DiagnosticTextEdit.native
  rw [hlocation, hreplacement]

theorem exists_nativeFix (fix : Fix) (h : FixFits limits fix) : ∃ value, DiagnosticFix.native value = fix := by
  obtain ⟨title, htitle⟩ := exists_nativeText h.1
  obtain ⟨edits, hedits⟩ := exists_nativeParts exists_nativeEdit h.2.2
  refine ⟨⟨title, edits⟩, ?_⟩
  unfold DiagnosticFix.native
  rw [htitle, hedits]

theorem exists_index {α : Type} [DecidableEq α] {all : List α} (hall : all.Nodup) {octet : UInt8}
    (h : octet.toNat < all.length) : ∃ value, UInt8.ofNat (all.idxOf value) = octet := by
  refine ⟨all.get ⟨octet.toNat, h⟩, ?_⟩
  rw [List.get_eq_getElem, List.Nodup.idxOf_getElem hall, UInt8.ofNat_toNat]

theorem exists_nativeStage {stage : Stage} (h : validStage stage = true) :
    ∃ value, DiagnosticStage.native value = stage := by
  have hle : stage.value.toNat ≤ 14 := UInt8.le_iff_toNat_le.mp (of_decide_eq_true h)
  obtain ⟨value, hvalue⟩ := @exists_index _ _ DiagnosticStage.all (by decide) _ (Nat.lt_succ_of_le hle)
  exact ⟨value, congrArg Stage.mk hvalue⟩

theorem exists_nativeSeverity {severity : Severity} (h : validSeverity severity = true) :
    ∃ value, ProtocolSeverity.native value = severity := by
  have hle : severity.value.toNat ≤ 3 := UInt8.le_iff_toNat_le.mp (of_decide_eq_true h)
  obtain ⟨value, hvalue⟩ := @exists_index _ _ ProtocolSeverity.all (by decide) _ (Nat.lt_succ_of_le hle)
  exact ⟨value, congrArg Severity.mk hvalue⟩

theorem exists_nativePrimary {primary : Option Location}
    (h : ∀ location ∈ primary, LocationFits limits location) :
    ∃ value : Option DiagnosticLocation, value.map DiagnosticLocation.native = primary := by
  cases primary with
  | none => exact ⟨none, rfl⟩
  | some location =>
      obtain ⟨value, hvalue⟩ := exists_nativeLocation location (h location rfl)
      exact ⟨some value, congrArg some hvalue⟩

theorem exists_nativeRecord (record : Record)
    (h : RecordFits limits record ∧ Diagnostic.validateRecord record limits = none) :
    ∃ value, DiagnosticRecord.native value = record := by
  obtain ⟨⟨hcode, hmessage, _, harguments, hprimary, _, hrelated, _, hfixes⟩, hvalid⟩ := h
  have htags := validateRecord_iff.mp hvalid
  obtain ⟨stage, hstage⟩ := exists_nativeStage htags.stage
  obtain ⟨severity, hseverity⟩ := exists_nativeSeverity htags.severity
  obtain ⟨code, hcode⟩ := exists_nativeText hcode
  obtain ⟨message, hmessage⟩ := exists_nativeText hmessage
  obtain ⟨arguments, harguments⟩ := exists_nativeParts exists_nativeArgument harguments
  obtain ⟨primary, hprimary⟩ := exists_nativePrimary hprimary
  obtain ⟨related, hrelated⟩ := exists_nativeParts exists_nativeRelated hrelated
  obtain ⟨fixes, hfixes⟩ := exists_nativeParts exists_nativeFix hfixes
  refine ⟨⟨stage, severity, code, message, arguments, primary, related, fixes⟩, ?_⟩
  unfold DiagnosticRecord.native
  rw [hstage, hseverity, hcode, hmessage, harguments, hprimary, hrelated, hfixes]

end Native

/-- Under any limits: documents survive encoding, their bytes are canonical, and the two decoders accept the
same bytes and read the same document from them. -/
theorem diagnosticDocuments_survive (limits : Limits) :
    (∀ document bytes, encode limits document = .ok bytes → decode limits bytes = .ok document) ∧
    (∀ document bytes, decode limits bytes = .ok document → encode limits document = .ok bytes) ∧
    (∀ bytes, (∃ document, decode limits bytes = .ok document) ↔
      ∃ document, decodeDiagnosticDocument (frontendLimits limits) bytes = .ok document) ∧
    (∀ bytes document document', decode limits bytes = .ok document →
      decodeDiagnosticDocument (frontendLimits limits) bytes = .ok document' → document = document'.native) ∧
    Function.Injective DiagnosticDocument.native := by
  refine ⟨?_, ?_, ?_, ?_, DiagnosticDocument.native_injective⟩
  · intro document bytes hencode
    exact decode_iff.mpr (encode_iff.mp hencode)
  · intro document bytes hdecode
    exact encode_iff.mpr (decode_iff.mp hdecode)
  · intro bytes
    constructor
    · rintro ⟨⟨records⟩, hdecode⟩
      obtain ⟨values, hvalues⟩ := exists_nativeParts exists_nativeRecord (decode_iff.mp hdecode).1.2
      refine ⟨⟨values⟩, decodeDiagnosticDocument_iff.mpr ?_⟩
      rw [hdecode]
      exact congrArg (Except.ok ∘ Document.mk) hvalues.symm
    · rintro ⟨document, hdecode⟩
      exact ⟨document.native, decodeDiagnosticDocument_iff.mp hdecode⟩
  · intro bytes document document' hnative hfrontend
    rw [decodeDiagnosticDocument_iff.mp hfrontend] at hnative
    exact (Except.ok.inj hnative).symm

end Tala.Diagnostic.Syntax
