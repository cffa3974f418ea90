import Tala.Diagnostic.Protocol

/-!
# `Diagnostic.ProtocolFacts` — the wire form of a document

`documentBytes` is what a document is on the wire, and `DocumentFits` is what is asked of it. The writer
appends these bytes and the reader takes them, part by part; both directions of every part together give
`encode_iff` and `decode_iff`.
-/

namespace Tala.Diagnostic

open Tala Tala.Library Tala.Library.Codec Tala.Artifact Tala.Artifact.Wire

/-! ## The bytes of a document -/

def locationBytes (location : Location) : Bytes :=
  textBytes location.source ++ (u32Bytes location.range.start.line ++ (u32Bytes location.range.start.column
    ++ (u32Bytes location.range.stop.line ++ u32Bytes location.range.stop.column)))

def argumentBytes (argument : MessageArgument) : Bytes := textBytes argument.name ++ textBytes argument.value

def primaryBytes : Option Location → Bytes
  | none => [booleanByte false]
  | some location => booleanByte true :: locationBytes location

def relatedBytes (related : RelatedLocation) : Bytes :=
  locationBytes related.location ++ textBytes related.message

def editBytes (edit : TextEdit) : Bytes := locationBytes edit.location ++ textBytes edit.replacement

def fixBytes (fix : Fix) : Bytes :=
  textBytes fix.title ++ (countBytes fix.edits.length ++ fix.edits.flatMap editBytes)

def recordBytes (record : Record) : Bytes :=
  record.stage.value :: record.severity.value :: (textBytes record.code ++ (textBytes record.message
    ++ (countBytes record.arguments.length ++ (record.arguments.flatMap argumentBytes
    ++ (primaryBytes record.primary
    ++ (countBytes record.related.length ++ (record.related.flatMap relatedBytes
    ++ (countBytes record.fixes.length ++ record.fixes.flatMap fixBytes))))))))

def documentBytes (document : Document) : Bytes :=
  magic ++ (u16Bytes protocolVersion ++ (u16Bytes 0 ++ (countBytes document.records.length
    ++ document.records.flatMap recordBytes)))

/-! ## What fits on the wire -/

section Fits

variable (limits : Limits)

def LocationFits (location : Location) : Prop := TextFits (wireLimits limits) location.source

def ArgumentFits (argument : MessageArgument) : Prop :=
  TextFits (wireLimits limits) argument.name ∧ TextFits (wireLimits limits) argument.value

def RelatedFits (related : RelatedLocation) : Prop :=
  LocationFits limits related.location ∧ TextFits (wireLimits limits) related.message

def EditFits (edit : TextEdit) : Prop :=
  LocationFits limits edit.location ∧ TextFits (wireLimits limits) edit.replacement

def FixFits (fix : Fix) : Prop :=
  TextFits (wireLimits limits) fix.title ∧ CountFits limits.maximumEditsPerFix fix.edits.length ∧
    ∀ edit ∈ fix.edits, EditFits limits edit

def RecordFits (record : Record) : Prop :=
  TextFits (wireLimits limits) record.code ∧ TextFits (wireLimits limits) record.message ∧
    CountFits limits.maximumArguments record.arguments.length ∧
    (∀ argument ∈ record.arguments, ArgumentFits limits argument) ∧
    (∀ primary ∈ record.primary, LocationFits limits primary) ∧
    CountFits limits.maximumRelatedLocations record.related.length ∧
    (∀ related ∈ record.related, RelatedFits limits related) ∧
    CountFits limits.maximumFixes record.fixes.length ∧ ∀ fix ∈ record.fixes, FixFits limits fix

def DocumentFits (document : Document) : Prop :=
  CountFits limits.maximumRecords document.records.length ∧
    ∀ record ∈ document.records, RecordFits limits record ∧ validateRecord record limits = none

end Fits

/-! ## What is valid -/

def LocationValid (location : Location) : Prop :=
  location.source ≠ [] ∧ positionPrecedes location.range.start location.range.stop = true

def FixValid (limits : Limits) (fix : Fix) : Prop :=
  fix.title ≠ [] ∧ fix.edits ≠ [] ∧ fix.edits.length ≤ limits.maximumEditsPerFix ∧
    ∀ edit ∈ fix.edits, LocationValid edit.location

/-- What the validation of a record asks of it. -/
structure RecordValid (limits : Limits) (record : Record) : Prop where
  stage : validStage record.stage = true
  severity : validSeverity record.severity = true
  code : validCode record.code = true
  message : record.message ≠ []
  argumentCount : record.arguments.length ≤ limits.maximumArguments
  relatedCount : record.related.length ≤ limits.maximumRelatedLocations
  fixCount : record.fixes.length ≤ limits.maximumFixes
  argumentNames : ∀ argument ∈ record.arguments, argument.name ≠ []
  argumentsDistinct : (record.arguments.map MessageArgument.name).Nodup
  primary : ∀ location ∈ record.primary, LocationValid location
  related : ∀ related ∈ record.related, related.message ≠ [] ∧ LocationValid related.location
  fixes : ∀ fix ∈ record.fixes, FixValid limits fix

@[simp] theorem reject_eq_none {condition : Bool} {error : Error} :
    reject condition error = none ↔ condition = false := by
  cases condition <;> simp [reject]

theorem orElse_eq_none {first second : Option Error} :
    (first <|> second) = none ↔ first = none ∧ second = none := by
  cases first <;> simp

variable {location : Location} {related : RelatedLocation} {limits : Limits} {record : Record}

theorem validateLocation_iff {context : String} :
    validateLocation location context = none ↔ LocationValid location := by
  unfold validateLocation LocationValid
  simp only [orElse_eq_none, reject_eq_none, Bool.not_eq_false',
    List.isEmpty_eq_false_iff, ne_eq]

theorem validateArguments_iff {names : List Text} {arguments : List MessageArgument} :
    validateArguments names arguments = none ↔
      (∀ argument ∈ arguments, argument.name ≠ [] ∧ argument.name ∉ names) ∧
        (arguments.map MessageArgument.name).Nodup := by
  induction arguments generalizing names with
  | nil => simp [validateArguments]
  | cons argument arguments ih =>
      rw [List.forall_mem_cons]
      unfold validateArguments
      simp only [orElse_eq_none, reject_eq_none, ih, List.isEmpty_eq_false_iff, decide_eq_false_iff_not,
        List.map_cons, List.nodup_cons, List.mem_cons, not_or]
      constructor
      · rintro ⟨hname, hnew, hothers, hnodup⟩
        refine ⟨⟨⟨hname, hnew⟩, fun other hother => ⟨(hothers other hother).1, (hothers other hother).2.2⟩⟩,
          ?_, hnodup⟩
        intro hmem
        obtain ⟨other, hother, heq⟩ := List.mem_map.mp hmem
        exact (hothers other hother).2.1 heq
      · rintro ⟨⟨⟨hname, hnew⟩, hothers⟩, hdistinct, hnodup⟩
        refine ⟨hname, hnew, fun other hother => ⟨(hothers other hother).1, ?_, (hothers other hother).2⟩, hnodup⟩
        intro heq
        exact hdistinct (List.mem_map.mpr ⟨other, hother, heq⟩)

theorem validateRelated_iff :
    validateRelated related = none ↔ related.message ≠ [] ∧ LocationValid related.location := by
  unfold validateRelated
  simp only [orElse_eq_none, reject_eq_none, List.isEmpty_eq_false_iff,
    validateLocation_iff]

theorem validateFix_iff {fix : Fix} : validateFix limits fix = none ↔ FixValid limits fix := by
  unfold validateFix FixValid
  simp only [orElse_eq_none, reject_eq_none, List.isEmpty_eq_false_iff,
    validateLocation_iff, decide_eq_false_iff_not, Nat.not_lt, gt_iff_lt, List.findSome?_eq_none_iff]

theorem validateRecord_iff : validateRecord record limits = none ↔ RecordValid limits record := by
  unfold validateRecord
  simp only [orElse_eq_none, reject_eq_none, List.isEmpty_eq_false_iff,
    Bool.not_eq_false', decide_eq_false_iff_not, Nat.not_lt, gt_iff_lt, List.findSome?_eq_none_iff,
    validateArguments_iff, validateRelated_iff, validateFix_iff, Option.bind_eq_none_iff,
    validateLocation_iff, List.not_mem_nil, not_false_eq_true, and_true]
  constructor
  · rintro ⟨hstage, hseverity, hcode, hmessage, hargumentCount, hrelatedCount, hfixCount,
      ⟨hnames, hdistinct⟩, hprimary, hrelated, hfixes⟩
    exact ⟨hstage, hseverity, hcode, hmessage, hargumentCount, hrelatedCount, hfixCount, hnames, hdistinct,
      hprimary, hrelated, hfixes⟩
  · intro h
    exact ⟨h.stage, h.severity, h.code, h.message, h.argumentCount, h.relatedCount, h.fixCount,
      ⟨h.argumentNames, h.argumentsDistinct⟩, h.primary, h.related, h.fixes⟩

/-! ## The writer -/

section Write

variable {limits : Limits}

theorem writeText_writes (value : Text) (context : String) :
    Writes limits.maximumWireBytes (Writer.text (wireLimits limits) value context)
      (TextFits (wireLimits limits) value) (textBytes value) :=
  @text_writes (wireLimits limits) value context

theorem writeWord_writes (value : UInt32) :
    Writes limits.maximumWireBytes (Writer.u32 (wireLimits limits) value) True (u32Bytes value) :=
  @u32_writes (wireLimits limits) value

theorem writeCount_writes (value maximum : Nat) (context : String) :
    Writes limits.maximumWireBytes (Writer.count (wireLimits limits) value maximum context)
      (CountFits maximum value) (countBytes value) :=
  @count_writes (wireLimits limits) value maximum context

theorem writeLocation_writes (location : Location) :
    Writes limits.maximumWireBytes (writeLocation limits location) (LocationFits limits location)
      (locationBytes location) := by
  apply ((writeText_writes location.source _).seq ((writeWord_writes _).seq ((writeWord_writes _).seq
    ((writeWord_writes _).seq (writeWord_writes _))))).congr
  · simp only [LocationFits, and_true]
  · intro _
    rfl

theorem writeArgument_writes (argument : MessageArgument) :
    Writes limits.maximumWireBytes (writeArgument limits argument) (ArgumentFits limits argument)
      (argumentBytes argument) :=
  (writeText_writes argument.name _).seq (writeText_writes argument.value _)

theorem writePrimary_writes (primary : Option Location) :
    Writes limits.maximumWireBytes (writePrimary limits primary)
      (∀ location ∈ primary, LocationFits limits location) (primaryBytes primary) := by
  cases primary with
  | none =>
      apply (@boolean_writes (wireLimits limits) false).congr
      · simp
      · intro _
        rfl
  | some location =>
      have hpresent := @boolean_writes (wireLimits limits) true
      apply (hpresent.seq (writeLocation_writes location)).congr
      · simp
      · intro _
        rfl

theorem writeRelated_writes (related : RelatedLocation) :
    Writes limits.maximumWireBytes (writeRelated limits related) (RelatedFits limits related)
      (relatedBytes related) :=
  (writeLocation_writes related.location).seq (writeText_writes related.message _)

theorem writeEdit_writes (edit : TextEdit) :
    Writes limits.maximumWireBytes (writeEdit limits edit) (EditFits limits edit) (editBytes edit) :=
  (writeLocation_writes edit.location).seq (writeText_writes edit.replacement _)

theorem writeFix_writes (fix : Fix) :
    Writes limits.maximumWireBytes (writeFix limits fix) (FixFits limits fix) (fixBytes fix) := by
  have hedits := @Writes.each _ _ _ limits.maximumWireBytes (writeEdit limits) _ _ fix.edits
    fun edit _ => writeEdit_writes edit
  exact (writeText_writes fix.title _).seq ((writeCount_writes fix.edits.length _ _).seq hedits)

theorem writeRecord_writes (record : Record) :
    Writes limits.maximumWireBytes (writeRecord limits record) (RecordFits limits record)
      (recordBytes record) := by
  have hstage := @byte_writes (wireLimits limits) record.stage.value
  have hseverity := @byte_writes (wireLimits limits) record.severity.value
  have harguments := @Writes.each _ _ _ limits.maximumWireBytes (writeArgument limits) _ _ record.arguments
    fun argument _ => writeArgument_writes argument
  have hrelated := @Writes.each _ _ _ limits.maximumWireBytes (writeRelated limits) _ _ record.related
    fun related _ => writeRelated_writes related
  have hfixes := @Writes.each _ _ _ limits.maximumWireBytes (writeFix limits) _ _ record.fixes
    fun fix _ => writeFix_writes fix
  apply (hstage.seq (hseverity.seq ((writeText_writes record.code _).seq
    ((writeText_writes record.message _).seq ((writeCount_writes record.arguments.length _ _).seq
      (harguments.seq ((writePrimary_writes record.primary).seq
        ((writeCount_writes record.related.length _ _).seq (hrelated.seq
          ((writeCount_writes record.fixes.length _ _).seq hfixes)))))))))).congr
  · simp only [RecordFits, true_and]
  · intro _
    rfl

theorem writeDocument_writes (document : Document) :
    Writes limits.maximumWireBytes (writeDocument limits document)
      (CountFits limits.maximumRecords document.records.length ∧
        ∀ record ∈ document.records, RecordFits limits record) (documentBytes document) := by
  have hmagic := @bytes_writes (wireLimits limits) magic
  have hversion := @u16_writes (wireLimits limits) protocolVersion
  have hflags := @u16_writes (wireLimits limits) 0
  have hrecords := @Writes.each _ _ _ limits.maximumWireBytes (writeRecord limits) _ _ document.records
    fun record _ => writeRecord_writes record
  apply (hmagic.seq (hversion.seq (hflags.seq
    ((writeCount_writes document.records.length _ _).seq hrecords)))).congr
  · simp only [true_and]
  · intro _
    rfl

variable {document : Document}

/-- A document is encoded exactly if it fits, and its bytes are then as described. -/
theorem encode_iff {bytes : Bytes} :
    encode limits document = .ok bytes ↔
      DocumentFits limits document ∧ bytes = documentBytes document ∧
        bytes.length ≤ limits.maximumWireBytes := by
  have hrun : writeDocument limits document [] = .ok ((), bytes) ↔ _ := (writeDocument_writes document).run
  unfold encode
  split
  · next hcount =>
    constructor
    · intro h
      cases h
    · rintro ⟨⟨⟨hfits, _⟩, _⟩, _⟩
      omega
  · split
    · next error hinvalid =>
      constructor
      · intro h
        cases h
      · rintro ⟨⟨_, hrecords⟩, _⟩
        obtain ⟨record, hrecord, hsome⟩ := List.exists_of_findSome?_eq_some hinvalid
        rw [(hrecords record hrecord).2] at hsome
        cases hsome
    · next hvalid =>
      rw [List.findSome?_eq_none_iff] at hvalid
      -- what is left is what the writer itself asks
      rw [show DocumentFits limits document ↔ CountFits limits.maximumRecords document.records.length ∧
          ∀ record ∈ document.records, RecordFits limits record from
        ⟨fun h => ⟨h.1, fun record hrecord => (h.2 record hrecord).1⟩,
          fun h => ⟨h.1, fun record hrecord => ⟨h.2 record hrecord, hvalid record hrecord⟩⟩⟩]
      cases hwritten : writeDocument limits document [] with
      | error error =>
          rw [hwritten] at hrun
          constructor
          · intro h
            cases h
          · rintro ⟨hfits, rfl, hlength⟩
            cases hrun.mpr ⟨hfits, rfl, hlength⟩
      | ok written =>
          obtain ⟨⟨⟩, written⟩ := written
          rw [hwritten] at hrun
          constructor
          · intro h
            cases h
            obtain ⟨hfits, rfl, hlength⟩ := hrun.mp rfl
            exact ⟨hfits, rfl, hlength⟩
          · rintro ⟨hfits, rfl, hlength⟩
            cases hrun.mpr ⟨hfits, rfl, hlength⟩
            rfl

end Write

/-! ## The reader -/

section Read

variable {limits : Limits}

theorem readLocation_reads (h : LocationFits limits location) :
    Reads (readLocation limits) (locationBytes location) location :=
  (text_reads _ h).bind ((u32_reads _ _).bind ((u32_reads _ _).bind ((u32_reads _ _).bind
    (u32_reads _ _).last)))

theorem readLocation_yields :
    Yields (readLocation limits) fun location items =>
      LocationFits limits location ∧ items = locationBytes location := by
  apply (text_yields "diagnostic source").bind
  rintro source _ ⟨hsource, rfl⟩
  apply (u32_yields _).bind
  rintro startLine _ rfl
  apply (u32_yields _).bind
  rintro startColumn _ rfl
  apply (u32_yields _).bind
  rintro endLine _ rfl
  apply (u32_yields _).last
  rintro endColumn _ rfl
  exact ⟨hsource, rfl⟩

theorem readArgument_reads {argument : MessageArgument} (h : ArgumentFits limits argument) :
    Reads (readArgument limits) (argumentBytes argument) argument :=
  (text_reads _ h.1).bind (text_reads _ h.2).last

theorem readArgument_yields :
    Yields (readArgument limits) fun argument items =>
      ArgumentFits limits argument ∧ items = argumentBytes argument := by
  apply (text_yields _).bind
  rintro name _ ⟨hname, rfl⟩
  apply (text_yields _).last
  rintro value _ ⟨hvalue, rfl⟩
  exact ⟨⟨hname, hvalue⟩, rfl⟩

theorem readPrimary_reads {primary : Option Location} (h : ∀ location ∈ primary, LocationFits limits location) :
    Reads (readPrimary limits) (primaryBytes primary) primary := by
  cases primary with
  | none => exact (boolean_reads _ false).item (Reads.pure none)
  | some location => exact (boolean_reads _ true).item (readLocation_reads (h location rfl)).last

theorem readPrimary_yields :
    Yields (readPrimary limits) fun primary items =>
      (∀ location ∈ primary, LocationFits limits location) ∧ items = primaryBytes primary := by
  apply (boolean_yields _).bind
  rintro present _ rfl
  cases present with
  | false =>
      apply Yields.pure
      constructor
      · intro location hlocation
        cases hlocation
      · rfl
  | true =>
      apply readLocation_yields.last
      rintro location _ ⟨hlocation, rfl⟩
      refine ⟨fun other hother => ?_, rfl⟩
      cases hother
      exact hlocation

theorem readRelated_reads (h : RelatedFits limits related) :
    Reads (readRelated limits) (relatedBytes related) related :=
  (readLocation_reads h.1).bind (text_reads _ h.2).last

theorem readRelated_yields :
    Yields (readRelated limits) fun related items =>
      RelatedFits limits related ∧ items = relatedBytes related := by
  apply readLocation_yields.bind
  rintro location _ ⟨hlocation, rfl⟩
  apply (text_yields _).last
  rintro message _ ⟨hmessage, rfl⟩
  exact ⟨⟨hlocation, hmessage⟩, rfl⟩

theorem readEdit_reads {edit : TextEdit} (h : EditFits limits edit) :
    Reads (readEdit limits) (editBytes edit) edit :=
  (readLocation_reads h.1).bind (text_reads _ h.2).last

theorem readEdit_yields :
    Yields (readEdit limits) fun edit items => EditFits limits edit ∧ items = editBytes edit := by
  apply readLocation_yields.bind
  rintro location _ ⟨hlocation, rfl⟩
  apply (text_yields _).last
  rintro replacement _ ⟨hreplacement, rfl⟩
  exact ⟨⟨hlocation, hreplacement⟩, rfl⟩

theorem readFix_reads {fix : Fix} (h : FixFits limits fix) : Reads (readFix limits) (fixBytes fix) fix := by
  obtain ⟨htitle, hcount, hedits⟩ := h
  have hread := @Reads.flatMap _ _ _ _ editBytes (readEdit limits) id fix.edits fun edit hedit =>
    readEdit_reads (hedits edit hedit)
  rw [List.map_id] at hread
  exact (text_reads _ htitle).bind ((count_reads _ hcount).bind hread.last)

theorem readFix_yields :
    Yields (readFix limits) fun fix items => FixFits limits fix ∧ items = fixBytes fix := by
  apply (text_yields _).bind
  rintro title _ ⟨htitle, rfl⟩
  apply (count_yields _ _).bind
  rintro count _ ⟨hcount, rfl⟩
  apply (Yields.many readEdit_yields count).last
  rintro edits _ ⟨rfl, hedits, rfl⟩
  exact ⟨⟨htitle, hcount, hedits⟩, rfl⟩

/-- A record whose stage and severity are of the catalog. -/
theorem readRecord_reads (h : RecordFits limits record)
    (hstage : validStage record.stage = true) (hseverity : validSeverity record.severity = true) :
    Reads (readRecord limits) (recordBytes record) record := by
  obtain ⟨hcode, hmessage, hargumentCount, harguments, hprimary, hrelatedCount, hrelated, hfixCount, hfixes⟩ := h
  have hreadArguments := @Reads.flatMap _ _ _ _ argumentBytes (readArgument limits) id record.arguments
    fun argument hargument => readArgument_reads (harguments argument hargument)
  have hreadRelated := @Reads.flatMap _ _ _ _ relatedBytes (readRelated limits) id record.related
    fun related h => readRelated_reads (hrelated related h)
  have hreadFixes := @Reads.flatMap _ _ _ _ fixBytes (readFix limits) id record.fixes
    fun fix hfix => readFix_reads (hfixes fix hfix)
  rw [List.map_id] at hreadArguments hreadRelated hreadFixes
  have hreadStage : Reads readStage [record.stage.value] record.stage :=
    @Reads.checked _ _ _ _ _ (fun tag => decide (tag ≤ Stage.llvmBackend.value)) _ Stage.mk _ _
      (byte_reads _ record.stage.value) hstage
  have hreadSeverity : Reads readSeverity [record.severity.value] record.severity :=
    @Reads.checked _ _ _ _ _ (fun tag => decide (tag ≤ Severity.hint.value)) _ Severity.mk _ _
      (byte_reads _ record.severity.value) hseverity
  exact hreadStage.item (hreadSeverity.item ((text_reads _ hcode).bind ((text_reads _ hmessage).bind
    ((count_reads _ hargumentCount).bind (hreadArguments.bind ((readPrimary_reads hprimary).bind
      ((count_reads _ hrelatedCount).bind (hreadRelated.bind ((count_reads _ hfixCount).bind
        hreadFixes.last)))))))))

theorem readStage_yields :
    Yields readStage fun stage items => validStage stage = true ∧ items = [stage.value] := by
  apply (byte_yields _).bind
  rintro tag _ rfl
  apply Yields.require
  intro htag
  exact Yields.pure ⟨htag, rfl⟩

theorem readSeverity_yields :
    Yields readSeverity fun severity items => validSeverity severity = true ∧ items = [severity.value] := by
  apply (byte_yields _).bind
  rintro tag _ rfl
  apply Yields.require
  intro htag
  exact Yields.pure ⟨htag, rfl⟩

theorem readRecord_yields :
    Yields (readRecord limits) fun record items =>
      (RecordFits limits record ∧ validStage record.stage = true ∧ validSeverity record.severity = true) ∧
        items = recordBytes record := by
  apply readStage_yields.bind
  rintro stage _ ⟨hstage, rfl⟩
  apply readSeverity_yields.bind
  rintro severity _ ⟨hseverity, rfl⟩
  apply (text_yields _).bind
  rintro code _ ⟨hcode, rfl⟩
  apply (text_yields _).bind
  rintro message _ ⟨hmessage, rfl⟩
  apply (count_yields _ _).bind
  rintro argumentCount _ ⟨hargumentCount, rfl⟩
  apply (Yields.many readArgument_yields argumentCount).bind
  rintro arguments _ ⟨rfl, harguments, rfl⟩
  apply readPrimary_yields.bind
  rintro primary _ ⟨hprimary, rfl⟩
  apply (count_yields _ _).bind
  rintro relatedCount _ ⟨hrelatedCount, rfl⟩
  apply (Yields.many readRelated_yields relatedCount).bind
  rintro related _ ⟨rfl, hrelated, rfl⟩
  apply (count_yields _ _).bind
  rintro fixCount _ ⟨hfixCount, rfl⟩
  apply (Yields.many readFix_yields fixCount).last
  rintro fixes _ ⟨rfl, hfixes, rfl⟩
  exact ⟨⟨⟨hcode, hmessage, hargumentCount, harguments, hprimary, hrelatedCount, hrelated, hfixCount, hfixes⟩,
    hstage, hseverity⟩, rfl⟩

theorem readValidRecord_reads (h : RecordFits limits record) (hvalid : validateRecord record limits = none) :
    Reads (readValidRecord limits) (recordBytes record) record := by
  have htags := validateRecord_iff.mp hvalid
  rw [← List.append_nil (recordBytes record)]
  apply (readRecord_reads h htags.stage htags.severity).bind
  rw [hvalid]
  exact Reads.pure record

theorem readValidRecord_yields :
    Yields (readValidRecord limits) fun record items =>
      (RecordFits limits record ∧ validateRecord record limits = none) ∧ items = recordBytes record := by
  apply readRecord_yields.bind
  rintro record _ ⟨⟨hrecord, _⟩, rfl⟩
  split
  · exact Yields.fail _ _
  · next hvalid =>
    apply Yields.pure
    rw [List.append_nil]
    exact ⟨⟨hrecord, hvalid⟩, rfl⟩

theorem readMagic_reads (expected : Bytes) : Reads (readMagic expected) expected () := by
  induction expected with
  | nil => exact Reads.pure ()
  | cons octet expected ih => exact (byte_reads _ octet).item ((Reads.require _ (by simp)).step ih)

theorem readMagic_yields (expected : Bytes) : Yields (readMagic expected) fun _ items => items = expected := by
  induction expected with
  | nil => exact Yields.pure rfl
  | cons octet expected ih =>
      apply (byte_yields _).bind
      rintro taken _ rfl
      apply Yields.require
      intro htaken
      obtain rfl := of_decide_eq_true htaken
      apply ih.weaken
      rintro _ _ rfl
      rfl

theorem readDocument_reads {document : Document} (h : DocumentFits limits document) :
    Reads (readDocument limits) (documentBytes document) document := by
  have hrecords := @Reads.flatMap _ _ _ _ recordBytes (readValidRecord limits) id document.records
    fun record hrecord => readValidRecord_reads (h.2 record hrecord).1 (h.2 record hrecord).2
  rw [List.map_id] at hrecords
  exact (readMagic_reads magic).bind ((u16_reads _ _).bind ((Reads.require _ (by simp)).step
    ((u16_reads _ _).bind ((Reads.require _ (by simp)).step ((count_reads _ h.1).bind hrecords.last)))))

theorem readDocument_yields :
    Yields (readDocument limits) fun document items =>
      DocumentFits limits document ∧ items = documentBytes document := by
  apply (readMagic_yields magic).bind
  rintro _ _ rfl
  apply (u16_yields _).bind
  rintro version _ rfl
  apply Yields.require
  intro hversion
  obtain rfl := of_decide_eq_true hversion
  apply (u16_yields _).bind
  rintro flags _ rfl
  apply Yields.require
  intro hflags
  obtain rfl := of_decide_eq_true hflags
  apply (count_yields _ _).bind
  rintro count _ ⟨hcount, rfl⟩
  apply (Yields.many readValidRecord_yields count).last
  rintro records _ ⟨rfl, hrecords, rfl⟩
  exact ⟨⟨hcount, hrecords⟩, rfl⟩

/-- The documents that are decoded are those that fit, from the bytes they are encoded as. -/
theorem decode_iff {document : Document} {bytes : Bytes} :
    decode limits bytes = .ok document ↔
      DocumentFits limits document ∧ bytes = documentBytes document ∧
        bytes.length ≤ limits.maximumWireBytes := by
  unfold decode
  split
  · next hlarge =>
    constructor
    · intro h
      cases h
    · rintro ⟨_, _, hlength⟩
      omega
  · next hlength =>
    constructor
    · intro h
      split at h
      · cases h
      · next found input hread =>
        split at h
        · next hend =>
          cases h
          obtain ⟨hfits, hbytes⟩ := readDocument_yields.run hread (List.isEmpty_iff.mp hend)
          exact ⟨hfits, hbytes, Nat.le_of_not_lt hlength⟩
        · cases h
    · rintro ⟨hfits, rfl, _⟩
      rw [(readDocument_reads hfits).run]
      rfl

end Read

end Tala.Diagnostic
