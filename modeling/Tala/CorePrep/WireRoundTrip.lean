import Tala.CorePrep.Verifier
import Tala.CorePrep.WireRecords

/-!
# `CorePrep.WireRoundTrip` — what CorePrep documents keep

The two directions of the format. The reader takes what the writer wrote, except for a null of type `bool`:
the verifier and the writer admit it and the reader does not. And what the reader takes is what the writer
writes, except where a type that has a tag of its own was spelled as a named type.

The symbols of a module are machine integers; `machine` says so where the model has `Int`.
-/

namespace Tala.CorePrep.Wire

open Tala Tala.Core Tala.Library Tala.Library.Codec
open Tala.Core.Wire (Bytes word16 word32 word64 encodeBool captureModeTag Ty.machine Ty.machineAll
  TemplateArgument.machine TemplateArgument.machineAll TemplateValue.machine ResolvedName.machine
  parameterMachine)

variable {limits : WireLimits} {strict : Bool}

/-! ## Types -/

theorem invalidTag_yields {α : Type} (P : α → Bytes → Prop) (context : String) (tag : Nat) :
    Yields (invalidTag context tag : WireDecoder α) P := by
  unfold invalidTag failAt
  exact Yields.fail P _

theorem encodeTypesAt_eq (depth : Int) (types : List Ty) :
    encodeTypesAt limits depth types = encodeAll (encodeTypeAt limits depth) types := by
  induction types with
  | nil => rfl
  | cons valueType types ih => rw [encodeTypesAt, ih, encodeAll]

theorem encodeTemplateArguments_eq (depth : Int) (arguments : List TemplateArgument) :
    encodeTemplateArguments limits depth arguments = encodeAll (encodeTemplateArgument limits depth) arguments := by
  induction arguments with
  | nil => rfl
  | cons argument arguments ih => rw [encodeTemplateArguments, ih, encodeAll]

theorem machineAll_iff {types : List Ty} : Ty.machineAll types = true ↔ ∀ t ∈ types, Ty.machine t = true := by
  induction types with
  | nil => simp [Ty.machineAll]
  | cons valueType types ih => rw [Ty.machineAll, Bool.and_eq_true, ih, List.forall_mem_cons]

theorem argumentsMachine_iff {arguments : List TemplateArgument} :
    TemplateArgument.machineAll arguments = true ↔ ∀ a ∈ arguments, TemplateArgument.machine a = true := by
  induction arguments with
  | nil => simp [TemplateArgument.machineAll]
  | cons argument arguments ih => rw [TemplateArgument.machineAll, Bool.and_eq_true, ih, List.forall_mem_cons]

variable {valueType : Ty} {depth : Int} {bytes : Bytes} {moduleValue : CorePrepModule} {tag : UInt8}
  {levels : Nat} {decodeNested : WireDecoder Ty} {literal : CoreLiteral} {atom : CorePrepAtom}
  {atoms : List CorePrepAtom} {operation : CorePrepOperation}

theorem primitiveTypeTag_eq_some (h : primitiveTypeTag valueType = some tag) :
    taggedType tag.toNat = some valueType := by
  unfold primitiveTypeTag at h
  split at h
  · next htype =>
    cases h
    rw [htype]
    rfl
  split at h
  · next htype =>
    cases h
    rw [htype]
    rfl
  split at h
  · next htype =>
    cases h
    rw [htype]
    rfl
  -- the scalar types are the rows of the table
  unfold scalarTypeTag at h
  split at h
  · next name _ _ _ =>
    rw [List.lookup_eq_some_iff] at h
    obtain ⟨before, after, hsplit, -⟩ := h
    have hmem : (name, tag) ∈ scalarTags := by
      rw [hsplit]
      simp
    have hrows : ∀ row ∈ scalarTags, taggedType row.2.toNat = some (namedScalar row.1) := by decide
    exact hrows _ hmem
  · cases h

/-- The tags of one type, each with the type. -/
theorem primitiveTypeTag_taggedType {tag : Nat} (h : taggedType tag = some valueType) :
    primitiveTypeTag valueType = some (UInt8.ofNat tag) := by
  have htags : ∀ tag < 21, ∀ valueType ∈ taggedType tag,
      primitiveTypeTag valueType = some (UInt8.ofNat tag) := by decide
  have hbound : tag < 21 := by
    by_contra hge
    have hnone : taggedType tag = none := by
      unfold taggedType
      split <;> first | omega | rfl
    rw [hnone] at h
    cases h
  exact htags tag hbound valueType h

theorem machine_taggedType {tag : Nat} (h : taggedType tag = some valueType) : Ty.machine valueType = true := by
  unfold taggedType at h
  split at h <;> first | (cases h; rfl) | cases h

theorem decodeTypeAt_tagged (h : taggedType tag.toNat = some valueType) :
    Reads (decodeTypeAt limits strict (levels + 1)) [tag] valueType := by
  rw [decodeTypeAt]
  refine Reads.item (readWord8_reads _ _ rfl) ?_
  split
  · next htag =>
    rw [htag] at h
    cases h
  · next htag =>
    rw [htag] at h
    cases h
  · next htag =>
    rw [htag] at h
    cases h
  · rw [h]
    exact Reads.pure valueType

theorem decodeTemplateArgument_reads {argument : TemplateArgument} (hmachine : TemplateArgument.machine argument)
    (hnested : ∀ t part, Ty.machine t → encodeTypeAt limits depth t = .ok part → Reads decodeNested part t)
    (h : encodeTemplateArgument limits depth argument = .ok bytes) :
    Reads (decodeTemplateArgument limits decodeNested) bytes argument := by
  unfold decodeTemplateArgument
  cases argument with
  | typeTemplateArgument valueType =>
      rw [encodeTemplateArgument] at h
      obtain ⟨encoded, hencoded, h⟩ := bind_eq_ok.mp h
      cases h
      rw [TemplateArgument.machine] at hmachine
      exact Reads.item (readWord8_reads _ 0 rfl) (hnested valueType encoded hmachine hencoded).last
  | valueTemplateArgument value =>
      rw [encodeTemplateArgument] at h
      cases value with
      | integerTemplateValue integer =>
          obtain ⟨encoded, hencoded, h⟩ := bind_eq_ok.mp h
          cases h
          exact Reads.item (readWord8_reads _ 1 rfl) (decodeInteger_reads hencoded).last
      | booleanTemplateValue boolean =>
          cases h
          exact Reads.item (readWord8_reads _ 2 rfl) (decodeBool_reads _ boolean).last
      | characterTemplateValue scalar =>
          obtain ⟨encoded, hencoded, h⟩ := bind_eq_ok.mp h
          cases h
          exact Reads.item (readWord8_reads _ 3 rfl) (decodeInteger_reads hencoded).last
      | templateValueParameter name =>
          obtain ⟨encoded, hencoded, h⟩ := bind_eq_ok.mp h
          cases h
          rw [TemplateArgument.machine] at hmachine
          exact Reads.item (readWord8_reads _ 4 rfl) (decodeResolvedName_reads hmachine hencoded).last

/-- No level is left exactly when the depth exceeds the limit, and each nested type takes one. -/
theorem typeLevels_zero : typeLevels limits depth = 0 ↔ limits.maximumTypeDepth < depth := by
  unfold typeLevels
  omega

theorem typeLevels_succ (h : typeLevels limits depth = levels + 1) :
    typeLevels limits (depth + 1) = levels ∧ ¬depth > limits.maximumTypeDepth := by
  unfold typeLevels at h ⊢
  omega

/-- What was written for a type, with the level that it takes. -/
theorem encodeTypeAt_eq (h : ¬depth > limits.maximumTypeDepth) (valueType : Ty) :
    encodeTypeAt limits depth valueType =
      match primitiveTypeTag valueType with
      | some tag => .ok [tag]
      | none =>
          match valueType with
          | .namedType name arguments => do
              let encodedName ← encodeQualifiedName limits name
              let encodedArguments ← encodeVector "template argument count" 65535 arguments.length
                (encodeAll (encodeTemplateArgument limits (depth + 1)) arguments)
              .ok (6 :: (encodedName ++ encodedArguments))
          | .functionType parameters result => do
              let encodedParameters ← encodeVector "function type parameter count" 65535 parameters.length
                (encodeAll (encodeTypeAt limits (depth + 1)) parameters)
              let encodedResult ← encodeTypeAt limits (depth + 1) result
              .ok (5 :: (encodedParameters ++ encodedResult))
          | .typeVariable name => do
              let encodedName ← encodeResolvedName limits "type variable symbol" name
              .ok (7 :: encodedName)
          | .errorType =>
              failure .unsupportedType "type" "unresolved ErrorType cannot cross the CorePrep boundary" := by
  rw [encodeTypeAt.eq_def, if_neg h]
  cases primitiveTypeTag valueType with
  | some tag => rfl
  | none =>
      cases valueType with
      | namedType name arguments => simp only [encodeTemplateArguments_eq]
      | functionType parameters result => simp only [encodeTypesAt_eq]
      | typeVariable name => rfl
      | errorType => rfl

/-- The induction is on the levels: each constructor of a type takes one of them. -/
theorem decodeTypeAt_reads (hlevels : typeLevels limits depth = levels)
    (hmachine : Ty.machine valueType) (h : encodeTypeAt limits depth valueType = .ok bytes) :
    Reads (decodeTypeAt limits strict levels) bytes valueType := by
  induction levels generalizing depth valueType bytes with
  | zero =>
      rw [encodeTypeAt.eq_def, if_pos (typeLevels_zero.mp hlevels)] at h
      cases h
  | succ levels ih =>
      obtain ⟨hnext, hdepth⟩ := typeLevels_succ hlevels
      rw [encodeTypeAt_eq hdepth] at h
      cases htag : primitiveTypeTag valueType with
      | some tag =>
          rw [htag] at h
          cases h
          exact decodeTypeAt_tagged (primitiveTypeTag_eq_some htag)
      | none =>
          rw [htag] at h
          rw [decodeTypeAt]
          cases valueType with
          | namedType name arguments =>
              obtain ⟨encodedName, hname, h⟩ := bind_eq_ok.mp h
              obtain ⟨encodedArguments, harguments, h⟩ := bind_eq_ok.mp h
              cases h
              rw [Ty.machine, argumentsMachine_iff] at hmachine
              apply Reads.item (readWord8_reads _ 6 rfl)
              apply (decodeQualifiedName_reads hname).bind
              have hread := @decodeVectorWithMaximum_reads _ "template argument count" _ _ _ _
                (decodeTemplateArgument limits (decodeTypeAt limits strict levels)) _ harguments
                fun argument hargument part hpart => decodeTemplateArgument_reads (hmachine argument hargument)
                  (fun t part ht hpart => ih hnext ht hpart) hpart
              exact @Reads.checked _ _ _ _ _
                (fun arguments => !(strict && (primitiveTypeTag (.namedType name arguments)).isSome)) _
                (Ty.namedType name) _ _ hread (by simp [htag])
          | functionType parameters result =>
              obtain ⟨encodedParameters, hparameters, h⟩ := bind_eq_ok.mp h
              obtain ⟨encodedResult, hresult, h⟩ := bind_eq_ok.mp h
              cases h
              rw [Ty.machine, Bool.and_eq_true, machineAll_iff] at hmachine
              apply Reads.item (readWord8_reads _ 5 rfl)
              have hread := @decodeVectorWithMaximum_reads _ "function type parameter count" _ _ _ _
                (decodeTypeAt limits strict levels) _ hparameters
                fun parameter hparameter part hpart => ih hnext (hmachine.1 parameter hparameter) hpart
              exact hread.bind (ih hnext hmachine.2 hresult).last
          | typeVariable name =>
              obtain ⟨encodedName, hname, h⟩ := bind_eq_ok.mp h
              cases h
              rw [Ty.machine] at hmachine
              exact Reads.item (readWord8_reads _ 7 rfl) (decodeResolvedName_reads hmachine hname).last
          | errorType => cases h

theorem decodeTemplateArgument_yields {canonical : Prop} (hnested : Yields decodeNested fun t items =>
      Ty.machine t = true ∧ (canonical → encodeTypeAt limits depth t = .ok items)) :
    Yields (decodeTemplateArgument limits decodeNested) fun argument items =>
      TemplateArgument.machine argument = true ∧
        (canonical → encodeTemplateArgument limits depth argument = .ok items) := by
  unfold decodeTemplateArgument
  apply (readWord8_yields _).bind
  rintro tag _ ⟨-, rfl⟩
  split
  · apply hnested.last
    rintro t items ⟨hmachine, h⟩
    rw [TemplateArgument.machine]
    refine ⟨hmachine, ?_⟩
    intro hcanonical
    rw [encodeTemplateArgument, h hcanonical]
    rfl
  · apply (@decodeInteger_yields limits).last
    intro value items h
    refine ⟨rfl, ?_⟩
    intro _
    rw [encodeTemplateArgument, encodeTemplateValue, h]
    rfl
  · apply (decodeBool_yields _).last
    rintro value _ rfl
    refine ⟨rfl, ?_⟩
    intro _
    rw [encodeTemplateArgument, encodeTemplateValue]
    rfl
  · apply (@decodeInteger_yields limits).last
    intro value items h
    refine ⟨rfl, ?_⟩
    intro _
    rw [encodeTemplateArgument, encodeTemplateValue, h]
    rfl
  · apply (@decodeResolvedName_yields limits "template value parameter" _).last
    rintro name items ⟨hmachine, h⟩
    rw [TemplateArgument.machine]
    refine ⟨hmachine, ?_⟩
    intro _
    rw [encodeTemplateArgument, encodeTemplateValue, h]
    rfl
  · exact invalidTag_yields _ _ _

theorem decodeTypeAt_yields (hlevels : typeLevels limits depth = levels) :
    Yields (decodeTypeAt limits strict levels) fun valueType items =>
      Ty.machine valueType = true ∧ (strict = true → encodeTypeAt limits depth valueType = .ok items) := by
  induction levels generalizing depth with
  | zero =>
      rw [decodeTypeAt]
      exact Yields.fail _ _
  | succ levels ih =>
      obtain ⟨hnext, hdepth⟩ := typeLevels_succ hlevels
      rw [decodeTypeAt]
      apply (readWord8_yields _).bind
      rintro tag _ ⟨-, rfl⟩
      split
      · apply (decodeVectorWithMaximum_yields (ih hnext)).bind
        rintro parameters items ⟨hmachine, hparameters⟩
        apply (ih hnext).last
        rintro result others ⟨hmachine', hresult⟩
        rw [Ty.machine, Bool.and_eq_true, machineAll_iff]
        refine ⟨⟨hmachine, hmachine'⟩, ?_⟩
        intro hstrict
        rw [encodeTypeAt_eq hdepth]
        show (encodeVector _ _ _ _ >>= fun _ => _) = _
        rw [hparameters hstrict]
        show (encodeTypeAt _ _ _ >>= fun _ => _) = _
        rw [hresult hstrict]
        rfl
      · apply (@decodeQualifiedName_yields limits).bind
        intro name items hname
        apply (decodeVectorWithMaximum_yields (decodeTemplateArgument_yields (ih hnext))).bind
        rintro arguments others ⟨hmachine, harguments⟩
        apply Yields.require
        intro hname'
        apply Yields.pure
        rw [Ty.machine, argumentsMachine_iff]
        refine ⟨hmachine, ?_⟩
        intro hstrict
        have htag : primitiveTypeTag (.namedType name arguments) = none := by
          simpa [hstrict] using hname'
        rw [encodeTypeAt_eq hdepth, htag]
        show (encodeQualifiedName _ _ >>= fun _ => _) = _
        rw [hname]
        show (encodeVector _ _ _ _ >>= fun _ => _) = _
        rw [harguments hstrict, List.append_nil]
        rfl
      · apply (@decodeResolvedName_yields limits "type variable symbol" _).last
        rintro name items ⟨hmachine, hname⟩
        rw [Ty.machine]
        refine ⟨hmachine, ?_⟩
        intro _
        rw [encodeTypeAt_eq hdepth]
        show (encodeResolvedName _ _ _ >>= fun _ => _) = _
        rw [hname]
        rfl
      · split
        · next valueType htype =>
          apply Yields.pure
          refine ⟨machine_taggedType htype, ?_⟩
          intro _
          rw [encodeTypeAt_eq hdepth, primitiveTypeTag_taggedType htype]
          rfl
        · exact invalidTag_yields _ _ _

theorem decodeType_reads (hmachine : Ty.machine valueType)
    (h : encodeType limits valueType = .ok bytes) : Reads (decodeType limits strict) bytes valueType :=
  decodeTypeAt_reads rfl hmachine h

theorem decodeType_yields : Yields (decodeType limits strict) fun valueType items =>
    Ty.machine valueType = true ∧ (strict = true → encodeType limits valueType = .ok items) :=
  decodeTypeAt_yields rfl

/-! ## Literals -/

theorem eq_namedScalar {name : String} (h : typeName valueType = name) (hne : name ≠ "") :
    valueType = namedScalar name := by
  unfold typeName at h
  split at h
  · rw [← h]
    rfl
  · exact absurd h.symm hne

/-- The tag that a literal is written with. -/
def literalTag : CoreLiteral → Nat
  | .coreUnit => 0
  | .coreBoolean _ => 1
  | .coreInteger _ => 2
  | .coreString _ => 3
  | .coreFloating _ => 4
  | .coreNull => 5

/-- A literal without the check of its type. -/
def encodePayload (limits : WireLimits) : CoreLiteral → Encoder
  | .coreUnit => .ok [0]
  | .coreBoolean value => .ok (1 :: encodeBool value)
  | .coreInteger value => do
      let encoded ← encodeInteger limits value
      .ok (2 :: encoded)
  | .coreString value => do
      let encoded ← encodeText limits "string literal" value
      .ok (3 :: encoded)
  | .coreFloating spelling => do
      let encoded ← encodeAscii limits "floating literal" spelling
      .ok (4 :: encoded)
  | .coreNull => .ok [5]

/-- The reader and the writer know the types of numbers by name and by tag. -/
theorem admitted_numbers {literal : Nat} {names : List String} {tags : List UInt8} {valueType : Ty}
    (hnames : ∀ t, literalAdmitted t literal = true ↔ typeName t ∈ names) (hempty : "" ∉ names)
    (htagged : ∀ name ∈ names, ∃ tag ∈ tags, primitiveTypeTag (namedScalar name) = some tag)
    (hnamed : (tags.all fun tag => (taggedType tag.toNat).all fun t => decide (typeName t ∈ names)) = true) :
    literalAdmitted valueType literal = true ↔ ∃ tag ∈ tags, primitiveTypeTag valueType = some tag := by
  rw [hnames]
  constructor
  · intro hmem
    have htype := eq_namedScalar rfl fun hname : typeName valueType = "" => hempty (hname ▸ hmem)
    obtain ⟨tag, htag, heq⟩ := htagged _ hmem
    exact ⟨tag, htag, by rw [htype, heq]⟩
  · rintro ⟨tag, htag, heq⟩
    have hall := List.all_eq_true.mp hnamed tag htag
    rw [primitiveTypeTag_eq_some heq] at hall
    exact of_decide_eq_true hall

theorem admitted_integer : literalAdmitted valueType 2 = true ↔
    ∃ tag ∈ [2, 3, 9, 10, 11, 12, 13, 14, 15, 16, (8 : UInt8)], primitiveTypeTag valueType = some tag := by
  refine @admitted_numbers _ ("char" :: integerTypeNames) _ _ ?_ ?_ ?_ ?_
  · intro t
    simp [literalAdmitted]
  · decide
  · decide
  · decide

theorem admitted_floating : literalAdmitted valueType 4 = true ↔
    ∃ tag ∈ [17, 18, 19, (20 : UInt8)], primitiveTypeTag valueType = some tag := by
  refine @admitted_numbers _ floatingTypeNames _ _ ?_ ?_ ?_ ?_
  · intro t
    simp [literalAdmitted]
  · decide
  · decide
  · decide

/-- The types that a payload other than null is written for are those that it is read for. -/
theorem encodeLiteral_eq_ok :
    encodeLiteral limits valueType literal = .ok bytes ↔
      (literal = .coreNull ∨ literalAdmitted valueType (literalTag literal) = true)
        ∧ encodePayload limits literal = .ok bytes := by
  have hmismatch : ¬mismatchedLiteral = .ok bytes := nofun
  have hplain : ∀ {tag : UInt8} {t : Ty}, taggedType tag.toNat = some t →
      (primitiveTypeTag valueType = some tag ↔ valueType = t) := by
    intro tag t htag
    constructor
    · intro h
      have heq := primitiveTypeTag_eq_some h
      rw [htag] at heq
      exact (Option.some.inj heq).symm
    · rintro rfl
      rw [primitiveTypeTag_taggedType htag, UInt8.ofNat_toNat]
  cases literal with
  | coreUnit =>
      simp only [encodeLiteral, encodePayload, literalTag, literalAdmitted, decide_eq_true_eq, reduceCtorEq,
        false_or, hplain (show taggedType (0 : UInt8).toNat = some unitType from rfl)]
      by_cases htype : valueType = unitType <;> simp [htype, hmismatch]
  | coreBoolean value =>
      simp only [encodeLiteral, encodePayload, literalTag, literalAdmitted, decide_eq_true_eq, reduceCtorEq,
        false_or, hplain (show taggedType (1 : UInt8).toNat = some boolType from rfl)]
      by_cases htype : valueType = boolType <;> simp [htype, hmismatch]
  | coreString value =>
      simp only [encodeLiteral, encodePayload, literalTag, literalAdmitted, decide_eq_true_eq, reduceCtorEq,
        false_or, hplain (show taggedType (4 : UInt8).toNat = some stringType from rfl)]
      by_cases htype : valueType = stringType <;> simp [htype, hmismatch]
  | coreInteger value =>
      rw [literalTag, admitted_integer]
      unfold encodeLiteral
      cases htag : primitiveTypeTag valueType with
      | none => simp [hmismatch]
      | some tag =>
          have hmem : tag ∈ [2, 3, 9, 10, 11, 12, 13, 14, 15, 16, (8 : UInt8)] ↔
              (integerWireTag tag || tag = 8) = true := by
            rw [show [2, 3, 9, 10, 11, 12, 13, 14, 15, 16, (8 : UInt8)]
              = [2, 3, 9, 10, 11, 12, 13, 14, 15, 16] ++ [8] from rfl, List.mem_append, List.mem_singleton,
              Bool.or_eq_true, decide_eq_true_eq, integerWireTag, List.contains_iff_mem]
          simp only [reduceCtorEq, false_or, Option.some.injEq, exists_eq_right', hmem]
          by_cases hwritten : (integerWireTag tag || tag = 8) = true
          · simp only [hwritten, if_true, true_and]
            rfl
          · simp only [hwritten]
            simpa using hmismatch
  | coreFloating spelling =>
      rw [literalTag, admitted_floating]
      unfold encodeLiteral
      cases htag : primitiveTypeTag valueType with
      | none => simp [hmismatch]
      | some tag =>
          have hmem : tag ∈ [17, 18, 19, (20 : UInt8)] ↔ floatingWireTag tag = true := by
            simp [floatingWireTag]
          simp only [reduceCtorEq, false_or, Option.some.injEq, exists_eq_right', hmem]
          by_cases hwritten : floatingWireTag tag = true
          · simp only [hwritten, if_true, true_and]
            rfl
          · simp only [hwritten]
            simpa using hmismatch
  | coreNull => simp [encodeLiteral, encodePayload]

theorem decodeLiteral_reads (hadmitted : literalAdmitted valueType (literalTag literal) = true)
    (h : encodePayload limits literal = .ok bytes) :
    Reads (decodeLiteral limits valueType) bytes literal := by
  unfold decodeLiteral
  cases literal with
  | coreUnit =>
      cases h
      exact Reads.item (readWord8_reads _ 0 rfl) ((Reads.require _ hadmitted).step (Reads.pure _))
  | coreBoolean value =>
      cases h
      exact Reads.item (readWord8_reads _ 1 rfl) ((Reads.require _ hadmitted).step (decodeBool_reads _ value).last)
  | coreInteger value =>
      obtain ⟨encoded, hencoded, h⟩ := bind_eq_ok.mp h
      cases h
      exact Reads.item (readWord8_reads _ 2 rfl)
        ((Reads.require _ hadmitted).step (decodeInteger_reads hencoded).last)
  | coreString value =>
      obtain ⟨encoded, hencoded, h⟩ := bind_eq_ok.mp h
      cases h
      exact Reads.item (readWord8_reads _ 3 rfl)
        ((Reads.require _ hadmitted).step (decodeText_reads hencoded).last)
  | coreFloating spelling =>
      obtain ⟨encoded, hencoded, h⟩ := bind_eq_ok.mp h
      cases h
      exact Reads.item (readWord8_reads _ 4 rfl)
        ((Reads.require _ hadmitted).step (decodeAscii_reads hencoded).last)
  | coreNull =>
      cases h
      exact Reads.item (readWord8_reads _ 5 rfl) ((Reads.require _ hadmitted).step (Reads.pure _))

theorem decodeLiteral_yields : Yields (decodeLiteral limits valueType) fun literal items =>
    literalAdmitted valueType (literalTag literal) = true ∧ encodePayload limits literal = .ok items := by
  unfold decodeLiteral
  apply (readWord8_yields _).bind
  rintro tag _ ⟨-, rfl⟩
  apply Yields.require
  intro hadmitted
  match tag with
  | 0 => exact Yields.pure ⟨hadmitted, rfl⟩
  | 1 =>
      apply (decodeBool_yields _).last
      rintro value _ rfl
      exact ⟨hadmitted, rfl⟩
  | 2 =>
      apply (@decodeInteger_yields limits).last
      intro value items h
      refine ⟨hadmitted, ?_⟩
      rw [encodePayload, h]
      rfl
  | 3 =>
      apply (@decodeText_yields limits "string literal" _).last
      intro value items h
      refine ⟨hadmitted, ?_⟩
      rw [encodePayload, h]
      rfl
  | 4 =>
      apply (@decodeAscii_yields limits "floating literal" _).last
      intro value items h
      refine ⟨hadmitted, ?_⟩
      rw [encodePayload, h]
      rfl
  | 5 => exact Yields.pure ⟨hadmitted, rfl⟩
  | _ + 6 => cases hadmitted

/-! ## Atoms -/

/-- The reader takes the literal for one of its type. -/
def AtomReadable : CorePrepAtom → Prop
  | .corePrepVariable _ _ => True
  | .corePrepLiteral literal valueType => literalAdmitted valueType (literalTag literal) = true

def CorePrepAtom.machine : CorePrepAtom → Bool
  | .corePrepVariable name valueType => ResolvedName.machine name && Ty.machine valueType
  | .corePrepLiteral _ valueType => Ty.machine valueType

theorem decodeAtom_reads (hmachine : CorePrepAtom.machine atom)
    (hreadable : AtomReadable atom) (h : encodeAtom limits atom = .ok bytes) :
    Reads (decodeAtom limits strict) bytes atom := by
  unfold decodeAtom
  cases atom with
  | corePrepVariable name valueType =>
      obtain ⟨encodedName, hname, h⟩ := bind_eq_ok.mp h
      obtain ⟨encodedType, htype, h⟩ := bind_eq_ok.mp h
      cases h
      rw [CorePrepAtom.machine, Bool.and_eq_true] at hmachine
      apply Reads.item (readWord8_reads _ 0 rfl)
      apply (decodeType_reads hmachine.2 htype).bind
      exact (decodeResolvedName_reads hmachine.1 hname).last
  | corePrepLiteral literal valueType =>
      obtain ⟨encodedType, htype, h⟩ := bind_eq_ok.mp h
      obtain ⟨encodedLiteral, hliteral, h⟩ := bind_eq_ok.mp h
      cases h
      apply Reads.item (readWord8_reads _ 1 rfl)
      apply (decodeType_reads hmachine htype).bind
      exact (decodeLiteral_reads hreadable (encodeLiteral_eq_ok.mp hliteral).2).last

theorem decodeAtom_yields : Yields (decodeAtom limits strict) fun atom items =>
    (CorePrepAtom.machine atom = true ∧ AtomReadable atom) ∧
      (strict = true → encodeAtom limits atom = .ok items) := by
  unfold decodeAtom
  apply (readWord8_yields _).bind
  rintro tag _ ⟨-, rfl⟩
  apply decodeType_yields.bind
  rintro valueType items ⟨hmachine, htype⟩
  match tag with
  | 0 =>
      apply (@decodeResolvedName_yields limits "variable symbol" _).last
      rintro name others ⟨hmachineName, hname⟩
      rw [CorePrepAtom.machine, Bool.and_eq_true]
      refine ⟨⟨⟨hmachineName, hmachine⟩, trivial⟩, ?_⟩
      intro hstrict
      rw [encodeAtom, hname, htype hstrict]
      rfl
  | 1 =>
      apply decodeLiteral_yields.last
      rintro literal others ⟨hadmitted, hliteral⟩
      refine ⟨⟨hmachine, hadmitted⟩, ?_⟩
      intro hstrict
      rw [encodeAtom, htype hstrict, encodeLiteral_eq_ok.mpr ⟨Or.inr hadmitted, hliteral⟩]
      rfl
  | _ + 2 => exact invalidTag_yields _ _ _

/-! ## Operations and instructions -/

/-- Every atom of a part of the document is one that the reader takes. -/
def Readable (atoms : List CorePrepAtom) : Prop := ∀ atom ∈ atoms, AtomReadable atom

def CorePrepCapture.machine (capture : CorePrepCapture) : Bool :=
  ResolvedName.machine capture.corePrepCaptureName && Ty.machine capture.corePrepCaptureType
    && CorePrepAtom.machine capture.corePrepCaptureAtom

def CorePrepOperation.machine : CorePrepOperation → Bool
  | .corePrepCopy atom => CorePrepAtom.machine atom
  | .corePrepCall callee arguments => CorePrepAtom.machine callee && arguments.all CorePrepAtom.machine
  | .corePrepPrimitive _ atoms => atoms.all CorePrepAtom.machine
  | .corePrepMakeClosure function captures =>
      ResolvedName.machine function && captures.all CorePrepCapture.machine

def CorePrepInstruction.machine : CorePrepInstruction → Bool
  | .corePrepBind name valueType _ operation =>
      ResolvedName.machine name && Ty.machine valueType && CorePrepOperation.machine operation
  | .corePrepAssign name atom => ResolvedName.machine name && CorePrepAtom.machine atom
  | .corePrepEvaluate operation => CorePrepOperation.machine operation

theorem decodeCaptureMode_reads (mode : CaptureMode) :
    Reads (decodeCaptureMode (captureModeTag mode).toNat) [] mode := by
  cases mode <;> exact Reads.pure _

theorem decodeCaptureMode_yields (tag : Nat) : Yields (decodeCaptureMode tag) fun mode items =>
    items = [] ∧ UInt8.ofNat tag = captureModeTag mode := by
  unfold decodeCaptureMode
  match tag with
  | 0 => exact Yields.pure ⟨rfl, rfl⟩
  | 1 => exact Yields.pure ⟨rfl, rfl⟩
  | 2 => exact Yields.pure ⟨rfl, rfl⟩
  | _ + 3 => exact invalidTag_yields _ _ _

theorem decodeCapture_reads {capture : CorePrepCapture}
    (hmachine : CorePrepCapture.machine capture) (hreadable : AtomReadable capture.corePrepCaptureAtom)
    (h : encodeCapture limits capture = .ok bytes) : Reads (decodeCapture limits strict) bytes capture := by
  obtain ⟨encodedName, hname, h⟩ := bind_eq_ok.mp h
  obtain ⟨encodedType, htype, h⟩ := bind_eq_ok.mp h
  obtain ⟨encodedAtom, hatom, h⟩ := bind_eq_ok.mp h
  cases h
  simp only [CorePrepCapture.machine, Bool.and_eq_true] at hmachine
  apply Reads.item (readWord8_reads _ _ rfl)
  apply (decodeCaptureMode_reads _).step
  apply (decodeResolvedName_reads hmachine.1.1 hname).bind
  apply (decodeType_reads hmachine.1.2 htype).bind
  exact (decodeAtom_reads hmachine.2 hreadable hatom).last

theorem decodeCapture_yields : Yields (decodeCapture limits strict) fun capture items =>
    (CorePrepCapture.machine capture = true ∧ AtomReadable capture.corePrepCaptureAtom) ∧
      (strict = true → encodeCapture limits capture = .ok items) := by
  apply (readWord8_yields _).bind
  rintro tag _ ⟨-, rfl⟩
  apply (decodeCaptureMode_yields tag).bind
  rintro mode _ ⟨rfl, htag⟩
  apply (@decodeResolvedName_yields limits "capture symbol" _).bind
  rintro name encodedName ⟨hmachineName, hname⟩
  apply decodeType_yields.bind
  rintro valueType encodedType ⟨hmachineType, htype⟩
  apply decodeAtom_yields.last
  rintro atom encodedAtom ⟨⟨hmachineAtom, hreadable⟩, hatom⟩
  simp only [CorePrepCapture.machine, hmachineName, hmachineType, hmachineAtom, Bool.and_self]
  refine ⟨⟨trivial, hreadable⟩, ?_⟩
  intro hstrict
  simp only [encodeCapture, hname, htype hstrict, hatom hstrict, htag]
  rfl

theorem encodeTaggedAtoms_eq_ok :
    encodeTaggedAtoms limits tag atoms = .ok bytes ↔
      ∃ encoded, encodeVector "operand count" limits.maximumOperandsPerInstruction atoms.length
        (encodeAll (encodeAtom limits) atoms) = .ok encoded ∧ bytes = tag :: encoded := by
  unfold encodeTaggedAtoms
  rw [bind_eq_ok]
  constructor
  · rintro ⟨encoded, hencoded, h⟩
    cases h
    exact ⟨encoded, hencoded, rfl⟩
  · rintro ⟨encoded, hencoded, rfl⟩
    exact ⟨encoded, hencoded, rfl⟩

theorem tagPrimitive_primitiveTag (primitive : CorePrimitive) :
    tagPrimitive (primitiveTag primitive).toNat = some primitive := by
  cases primitive <;> rfl

theorem primitiveTag_tagPrimitive {tag : Nat} {primitive : CorePrimitive}
    (h : tagPrimitive tag = some primitive) : UInt8.ofNat tag = primitiveTag primitive := by
  unfold tagPrimitive at h
  split at h <;> first | (cases h; rfl) | cases h

/-- The operands of an operation that is not a closure, behind its tag. -/
theorem decodeOperands_reads (htag : tag.toNat ≠ 18) (hoperation : Reads (operationOf tag.toNat atoms) [] operation)
    (hmachine : atoms.all CorePrepAtom.machine = true) (hreadable : Readable atoms)
    (h : encodeTaggedAtoms limits tag atoms = .ok bytes) :
    Reads (decodeOperation limits strict) bytes operation := by
  obtain ⟨encoded, hencoded, rfl⟩ := encodeTaggedAtoms_eq_ok.mp h
  unfold decodeOperation
  apply Reads.item (readWord8_reads _ _ rfl)
  rw [if_neg htag, ← List.append_nil encoded]
  refine Reads.bind ?_ hoperation
  exact decodeVectorWithMaximum_reads hencoded fun atom hatom part hpart =>
    decodeAtom_reads (List.all_eq_true.mp hmachine atom hatom) (hreadable atom hatom) hpart

theorem decodeOperation_reads (hmachine : CorePrepOperation.machine operation) (hreadable : Readable operation.atoms)
    (h : encodeOperation limits operation = .ok bytes) :
    Reads (decodeOperation limits strict) bytes operation := by
  cases operation with
  | corePrepCopy atom =>
      have hall : [atom].all CorePrepAtom.machine = true := by
        rw [List.all_cons, List.all_nil, Bool.and_true]
        exact hmachine
      exact decodeOperands_reads (by decide) (Reads.pure _) hall hreadable h
  | corePrepCall callee arguments =>
      have hall : (callee :: arguments).all CorePrepAtom.machine = true := by
        rw [List.all_cons]
        exact hmachine
      exact decodeOperands_reads (by decide) (Reads.pure _) hall hreadable h
  | corePrepPrimitive primitive atoms =>
      refine decodeOperands_reads ?_ ?_ hmachine hreadable h
      · cases primitive <;> decide
      · have hprimitive := tagPrimitive_primitiveTag primitive
        unfold operationOf
        split
        · next htag =>
          rw [htag] at hprimitive
          cases hprimitive
        · next htag =>
          rw [htag] at hprimitive
          cases hprimitive
        · rw [hprimitive]
          exact Reads.pure _
  | corePrepMakeClosure function captures =>
      obtain ⟨encodedFunction, hfunction, h⟩ := bind_eq_ok.mp h
      obtain ⟨encodedCaptures, hcaptures, h⟩ := bind_eq_ok.mp h
      cases h
      simp only [CorePrepOperation.machine, Bool.and_eq_true] at hmachine
      unfold decodeOperation
      apply Reads.item (readWord8_reads _ 18 rfl)
      rw [if_pos rfl]
      apply (decodeResolvedName_reads hmachine.1 hfunction).bind
      have hread := @decodeVectorWithMaximum_reads _ "closure capture count" _ _ _ _
        (decodeCapture limits strict) _ hcaptures fun capture hcapture part hpart =>
          decodeCapture_reads (List.all_eq_true.mp hmachine.2 capture hcapture)
            (hreadable _ (List.mem_map_of_mem hcapture)) hpart
      exact hread.last

theorem operationOf_yields {tag : Nat} :
    Yields (operationOf tag atoms) fun operation items => items = [] ∧ operation.atoms = atoms ∧
      CorePrepOperation.machine operation = atoms.all CorePrepAtom.machine ∧
      encodeOperation limits operation = encodeTaggedAtoms limits (UInt8.ofNat tag) atoms := by
  unfold operationOf
  split
  · split
    · apply Yields.pure
      rw [List.all_cons, List.all_nil, Bool.and_true]
      exact ⟨rfl, rfl, rfl, rfl⟩
    · unfold invalidArity failAt
      exact Yields.fail _ _
  · split
    · apply Yields.pure
      rw [List.all_cons]
      exact ⟨rfl, rfl, rfl, rfl⟩
    · unfold invalidArity failAt
      exact Yields.fail _ _
  · split
    · next primitive hprimitive =>
      apply Yields.pure
      refine ⟨rfl, rfl, rfl, ?_⟩
      rw [primitiveTag_tagPrimitive hprimitive]
      rfl
    · exact invalidTag_yields _ _ _

theorem decodeOperation_yields : Yields (decodeOperation limits strict) fun operation items =>
    (CorePrepOperation.machine operation = true ∧ Readable operation.atoms) ∧
      (strict = true → encodeOperation limits operation = .ok items) := by
  unfold decodeOperation
  apply (readWord8_yields _).bind
  rintro tag _ ⟨-, rfl⟩
  split
  · next htag =>
    subst htag
    apply (@decodeResolvedName_yields limits "closure function symbol" _).bind
    rintro function encodedFunction ⟨hmachine, hfunction⟩
    apply (@decodeVectorWithMaximum_yields "closure capture count" _ _ _ _ _ _ _ decodeCapture_yields).last
    rintro captures encodedCaptures ⟨hall, hcaptures⟩
    rw [CorePrepOperation.machine, Bool.and_eq_true, List.all_eq_true]
    refine ⟨⟨⟨hmachine, fun capture hcapture => (hall capture hcapture).1⟩, ?_⟩, ?_⟩
    · intro atom hatom
      obtain ⟨capture, hcapture, rfl⟩ := List.mem_map.mp hatom
      exact (hall capture hcapture).2
    · intro hstrict
      simp only [encodeOperation, hfunction, hcaptures hstrict]
      rfl
  · apply (@decodeVectorWithMaximum_yields "operand count" _ _ _ _ _ _ _ decodeAtom_yields).bind
    rintro atoms encoded ⟨hall, hatoms⟩
    apply operationOf_yields.weaken
    rintro operation _ ⟨rfl, hoperation, hmachine, hencode⟩
    rw [hoperation, hmachine, List.all_eq_true]
    refine ⟨⟨fun atom hatom => (hall atom hatom).1, fun atom hatom => (hall atom hatom).2⟩, ?_⟩
    intro hstrict
    rw [hencode, List.append_nil]
    exact encodeTaggedAtoms_eq_ok.mpr ⟨encoded, hatoms hstrict, rfl⟩

theorem decodeInstruction_reads {instruction : CorePrepInstruction}
    (hmachine : CorePrepInstruction.machine instruction) (hreadable : Readable instruction.atoms)
    (h : encodeInstruction limits instruction = .ok bytes) :
    Reads (decodeInstruction limits strict) bytes instruction := by
  unfold decodeInstruction
  cases instruction with
  | corePrepBind name valueType «mutable» operation =>
      obtain ⟨encodedName, hname, h⟩ := bind_eq_ok.mp h
      obtain ⟨encodedType, htype, h⟩ := bind_eq_ok.mp h
      obtain ⟨encodedOperation, hoperation, h⟩ := bind_eq_ok.mp h
      cases h
      simp only [CorePrepInstruction.machine, Bool.and_eq_true] at hmachine
      apply Reads.item (readWord8_reads _ 0 rfl)
      apply (decodeResolvedName_reads hmachine.1.1 hname).bind
      apply (decodeType_reads hmachine.1.2 htype).bind
      apply (decodeBool_reads _ «mutable»).bind
      exact (decodeOperation_reads hmachine.2 hreadable hoperation).last
  | corePrepAssign name atom =>
      obtain ⟨encodedName, hname, h⟩ := bind_eq_ok.mp h
      obtain ⟨encodedAtom, hatom, h⟩ := bind_eq_ok.mp h
      cases h
      simp only [CorePrepInstruction.machine, Bool.and_eq_true] at hmachine
      apply Reads.item (readWord8_reads _ 1 rfl)
      apply (decodeResolvedName_reads hmachine.1 hname).bind
      exact (decodeAtom_reads hmachine.2 (hreadable atom List.mem_cons_self) hatom).last
  | corePrepEvaluate operation =>
      obtain ⟨encodedOperation, hoperation, h⟩ := bind_eq_ok.mp h
      cases h
      exact Reads.item (readWord8_reads _ 2 rfl) (decodeOperation_reads hmachine hreadable hoperation).last

theorem decodeInstruction_yields : Yields (decodeInstruction limits strict) fun instruction items =>
    (CorePrepInstruction.machine instruction = true ∧ Readable instruction.atoms) ∧
      (strict = true → encodeInstruction limits instruction = .ok items) := by
  unfold decodeInstruction
  apply (readWord8_yields _).bind
  rintro tag _ ⟨-, rfl⟩
  match tag with
  | 0 =>
      apply (@decodeResolvedName_yields limits "binding symbol" _).bind
      rintro name encodedName ⟨hmachineName, hname⟩
      apply decodeType_yields.bind
      rintro valueType encodedType ⟨hmachineType, htype⟩
      apply (decodeBool_yields _).bind
      rintro «mutable» _ rfl
      apply decodeOperation_yields.last
      rintro operation encodedOperation ⟨⟨hmachine, hreadable⟩, hoperation⟩
      simp only [CorePrepInstruction.machine, hmachineName, hmachineType, hmachine, Bool.and_self]
      refine ⟨⟨trivial, hreadable⟩, ?_⟩
      intro hstrict
      simp only [encodeInstruction, hname, htype hstrict, hoperation hstrict]
      rfl
  | 1 =>
      apply (@decodeResolvedName_yields limits "assignment symbol" _).bind
      rintro name encodedName ⟨hmachineName, hname⟩
      apply decodeAtom_yields.last
      rintro atom encodedAtom ⟨⟨hmachine, hreadable⟩, hatom⟩
      simp only [CorePrepInstruction.machine, hmachineName, hmachine, Bool.and_self]
      refine ⟨⟨trivial, List.forall_mem_singleton.mpr hreadable⟩, ?_⟩
      intro hstrict
      simp only [encodeInstruction, hname, hatom hstrict]
      rfl
  | 2 =>
      apply decodeOperation_yields.last
      rintro operation encodedOperation ⟨hoperation', hoperation⟩
      refine ⟨hoperation', ?_⟩
      intro hstrict
      simp only [encodeInstruction, hoperation hstrict]
      rfl
  | _ + 3 => exact invalidTag_yields _ _ _

/-! ## Blocks, functions and modules -/

def CorePrepTerminator.machine : CorePrepTerminator → Bool
  | .corePrepReturn atom => CorePrepAtom.machine atom
  | .corePrepBranch atom _ _ => CorePrepAtom.machine atom
  | .corePrepJump _ => true
  | .corePrepUnreachable => true

def CorePrepBlock.machine (block : CorePrepBlock) : Bool :=
  block.corePrepBlockInstructions.all CorePrepInstruction.machine
    && CorePrepTerminator.machine block.corePrepBlockTerminator

def CorePrepFunction.machine (function : CorePrepFunction) : Bool :=
  ResolvedName.machine function.corePrepFunctionName && function.corePrepFunctionParameters.all parameterMachine
    && Ty.machine function.corePrepFunctionReturnType
    && function.corePrepFunctionBlocks.all CorePrepBlock.machine

/-- The symbols that a module mentions are machine integers. -/
def CorePrepModule.machine (moduleValue : CorePrepModule) : Bool :=
  moduleValue.corePrepModuleFunctions.all CorePrepFunction.machine

theorem decodeTerminator_reads {terminator : CorePrepTerminator}
    (hmachine : CorePrepTerminator.machine terminator) (hreadable : Readable terminator.atoms)
    (h : encodeTerminator limits terminator = .ok bytes) :
    Reads (decodeTerminator limits strict) bytes terminator := by
  unfold decodeTerminator
  cases terminator with
  | corePrepReturn atom =>
      obtain ⟨encoded, hatom, h⟩ := bind_eq_ok.mp h
      cases h
      exact Reads.item (readWord8_reads _ 0 rfl)
        (decodeAtom_reads hmachine (hreadable atom List.mem_cons_self) hatom).last
  | corePrepBranch atom trueTarget falseTarget =>
      obtain ⟨encoded, hatom, h⟩ := bind_eq_ok.mp h
      obtain ⟨trueBlock, htrue, h⟩ := bind_eq_ok.mp h
      obtain ⟨falseBlock, hfalse, h⟩ := bind_eq_ok.mp h
      cases h
      apply Reads.item (readWord8_reads _ 1 rfl)
      apply (decodeAtom_reads hmachine (hreadable atom List.mem_cons_self) hatom).bind
      exact (decodeBlockId_reads htrue).bind (decodeBlockId_reads hfalse).last
  | corePrepJump target =>
      obtain ⟨encoded, htarget, h⟩ := bind_eq_ok.mp h
      cases h
      exact Reads.item (readWord8_reads _ 2 rfl) (decodeBlockId_reads htarget).last
  | corePrepUnreachable =>
      cases h
      exact Reads.item (readWord8_reads _ 3 rfl) (Reads.pure _)

theorem decodeTerminator_yields : Yields (decodeTerminator limits strict) fun terminator items =>
    (CorePrepTerminator.machine terminator = true ∧ Readable terminator.atoms) ∧
      (strict = true → encodeTerminator limits terminator = .ok items) := by
  unfold decodeTerminator
  apply (readWord8_yields _).bind
  rintro tag _ ⟨-, rfl⟩
  match tag with
  | 0 =>
      apply decodeAtom_yields.last
      rintro atom encoded ⟨⟨hmachine, hreadable⟩, hatom⟩
      refine ⟨⟨hmachine, List.forall_mem_singleton.mpr hreadable⟩, ?_⟩
      intro hstrict
      simp only [encodeTerminator, hatom hstrict]
      rfl
  | 1 =>
      apply decodeAtom_yields.bind
      rintro atom encoded ⟨⟨hmachine, hreadable⟩, hatom⟩
      apply (@decodeBlockId_yields "true target" _).bind
      intro trueTarget trueBlock htrue
      apply (@decodeBlockId_yields "false target" _).last
      intro falseTarget falseBlock hfalse
      refine ⟨⟨hmachine, List.forall_mem_singleton.mpr hreadable⟩, ?_⟩
      intro hstrict
      simp only [encodeTerminator, hatom hstrict, htrue, hfalse]
      rfl
  | 2 =>
      apply (@decodeBlockId_yields "jump target" _).last
      intro target encoded htarget
      refine ⟨⟨rfl, nofun⟩, ?_⟩
      intro _
      simp only [encodeTerminator, htarget]
      rfl
  | 3 => exact Yields.pure ⟨⟨rfl, nofun⟩, fun _ => rfl⟩
  | _ + 4 => exact invalidTag_yields _ _ _

theorem decodeBlock_reads {block : CorePrepBlock} (hmachine : CorePrepBlock.machine block)
    (hreadable : Readable block.atoms) (h : encodeBlock limits block = .ok bytes) :
    Reads (decodeBlock limits strict) bytes block := by
  obtain ⟨identifier, hidentifier, h⟩ := bind_eq_ok.mp h
  obtain ⟨instructions, hinstructions, h⟩ := bind_eq_ok.mp h
  obtain ⟨terminator, hterminator, h⟩ := bind_eq_ok.mp h
  cases h
  rw [CorePrepBlock.machine, Bool.and_eq_true, List.all_eq_true] at hmachine
  apply (decodeBlockId_reads hidentifier).bind
  have hread := @decodeVectorWithMaximum_reads _ "instruction count" _ _ _ _ (decodeInstruction limits strict) _
    hinstructions fun instruction hinstruction part hpart =>
      decodeInstruction_reads (hmachine.1 instruction hinstruction)
        (fun atom hatom => hreadable atom
          (List.mem_append_left _ (List.mem_flatMap.mpr ⟨instruction, hinstruction, hatom⟩))) hpart
  apply hread.bind
  exact (decodeTerminator_reads hmachine.2
    (fun atom hatom => hreadable atom (List.mem_append_right _ hatom)) hterminator).last

theorem decodeBlock_yields : Yields (decodeBlock limits strict) fun block items =>
    (CorePrepBlock.machine block = true ∧ Readable block.atoms) ∧
      (strict = true → encodeBlock limits block = .ok items) := by
  apply (@decodeBlockId_yields "block id" _).bind
  intro identifier encodedIdentifier hidentifier
  apply (@decodeVectorWithMaximum_yields "instruction count" _ _ _ _ _ _ _ decodeInstruction_yields).bind
  rintro instructions encodedInstructions ⟨hall, hinstructions⟩
  apply decodeTerminator_yields.last
  rintro terminator encodedTerminator ⟨⟨hmachine, hreadable⟩, hterminator⟩
  rw [CorePrepBlock.machine, Bool.and_eq_true, List.all_eq_true]
  refine ⟨⟨⟨fun instruction hinstruction => (hall instruction hinstruction).1, hmachine⟩, ?_⟩, ?_⟩
  · intro atom hatom
    rcases List.mem_append.mp hatom with hatom | hatom
    · obtain ⟨instruction, hinstruction, hatom⟩ := List.mem_flatMap.mp hatom
      exact (hall instruction hinstruction).2 atom hatom
    · exact hreadable atom hatom
  · intro hstrict
    simp only [encodeBlock, hidentifier, hinstructions hstrict, hterminator hstrict]
    rfl

theorem decodeParameter_reads {parameter : ResolvedName × Ty}
    (hmachine : parameterMachine parameter) (h : encodeParameter limits parameter = .ok bytes) :
    Reads (decodeParameter limits strict) bytes parameter := by
  obtain ⟨encodedName, hname, h⟩ := bind_eq_ok.mp h
  obtain ⟨encodedType, htype, h⟩ := bind_eq_ok.mp h
  cases h
  rw [parameterMachine, Bool.and_eq_true] at hmachine
  exact (decodeResolvedName_reads hmachine.1 hname).bind (decodeType_reads hmachine.2 htype).last

theorem decodeParameter_yields : Yields (decodeParameter limits strict) fun parameter items =>
    parameterMachine parameter = true ∧ (strict = true → encodeParameter limits parameter = .ok items) := by
  apply (@decodeResolvedName_yields limits "parameter symbol" _).bind
  rintro name encodedName ⟨hmachineName, hname⟩
  apply decodeType_yields.last
  rintro valueType encodedType ⟨hmachineType, htype⟩
  rw [parameterMachine, Bool.and_eq_true]
  refine ⟨⟨hmachineName, hmachineType⟩, ?_⟩
  intro hstrict
  simp only [encodeParameter, hname, htype hstrict]
  rfl

theorem decodeFunction_reads {function : CorePrepFunction}
    (hmachine : CorePrepFunction.machine function) (hreadable : Readable function.atoms)
    (h : encodeFunction limits function = .ok bytes) : Reads (decodeFunction limits strict) bytes function := by
  obtain ⟨name, hname, h⟩ := bind_eq_ok.mp h
  obtain ⟨source, hsource, h⟩ := bind_eq_ok.mp h
  obtain ⟨parameters, hparameters, h⟩ := bind_eq_ok.mp h
  obtain ⟨result, hresult, h⟩ := bind_eq_ok.mp h
  obtain ⟨entry, hentry, h⟩ := bind_eq_ok.mp h
  obtain ⟨blocks, hblocks, h⟩ := bind_eq_ok.mp h
  cases h
  simp only [CorePrepFunction.machine, Bool.and_eq_true, List.all_eq_true] at hmachine
  obtain ⟨⟨⟨hmachineName, hmachineParameters⟩, hmachineResult⟩, hmachineBlocks⟩ := hmachine
  apply (decodeResolvedName_reads hmachineName hname).bind
  apply (decodeText_reads hsource).bind
  have hreadParameters := @decodeVectorWithMaximum_reads _ "parameter count" _ _ _ _
    (decodeParameter limits strict) _ hparameters fun parameter hparameter part hpart =>
      decodeParameter_reads (hmachineParameters parameter hparameter) hpart
  apply hreadParameters.bind
  apply (decodeType_reads hmachineResult hresult).bind
  apply (decodeBlockId_reads hentry).bind
  have hreadBlocks := @decodeVectorWithMaximum_reads _ "block count" _ _ _ _ (decodeBlock limits strict) _
    hblocks fun block hblock part hpart => decodeBlock_reads (hmachineBlocks block hblock)
      (fun atom hatom => hreadable atom (List.mem_flatMap.mpr ⟨block, hblock, hatom⟩)) hpart
  exact hreadBlocks.last

theorem decodeFunction_yields : Yields (decodeFunction limits strict) fun function items =>
    (CorePrepFunction.machine function = true ∧ Readable function.atoms) ∧
      (strict = true → encodeFunction limits function = .ok items) := by
  apply (@decodeResolvedName_yields limits "function symbol" _).bind
  rintro name encodedName ⟨hmachineName, hname⟩
  apply (@decodeText_yields limits "function source file" _).bind
  intro source encodedSource hsource
  apply (@decodeVectorWithMaximum_yields "parameter count" _ _ _ _ _ _ _ decodeParameter_yields).bind
  rintro parameters encodedParameters ⟨hmachineParameters, hparameters⟩
  apply decodeType_yields.bind
  rintro result encodedResult ⟨hmachineResult, hresult⟩
  apply (@decodeBlockId_yields "entry block" _).bind
  intro entry encodedEntry hentry
  apply (@decodeVectorWithMaximum_yields "block count" _ _ _ _ _ _ _ decodeBlock_yields).last
  rintro blocks encodedBlocks ⟨hall, hblocks⟩
  have hmachine : CorePrepFunction.machine ⟨name, source, parameters, result, entry, blocks⟩ = true := by
    simp only [CorePrepFunction.machine, hmachineName, hmachineResult, Bool.and_eq_true, List.all_eq_true,
      Bool.true_and]
    exact ⟨⟨hmachineParameters, trivial⟩, fun block hblock => (hall block hblock).1⟩
  refine ⟨⟨hmachine, ?_⟩, ?_⟩
  · intro atom hatom
    obtain ⟨block, hblock, hatom⟩ := List.mem_flatMap.mp hatom
    exact (hall block hblock).2 atom hatom
  · intro hstrict
    simp only [encodeFunction, hname, hsource, hparameters hstrict, hresult hstrict, hentry, hblocks hstrict]
    rfl

theorem decodeModule_reads (hmachine : CorePrepModule.machine moduleValue) (hreadable : Readable moduleValue.atoms)
    (h : encodeModule limits moduleValue = .ok bytes) :
    Reads (decodeModule limits strict) bytes moduleValue := by
  obtain ⟨name, hname, h⟩ := bind_eq_ok.mp h
  obtain ⟨sources, hsources, h⟩ := bind_eq_ok.mp h
  obtain ⟨functions, hfunctions, h⟩ := bind_eq_ok.mp h
  cases h
  rw [CorePrepModule.machine, List.all_eq_true] at hmachine
  apply (decodeQualifiedName_reads hname).bind
  have hreadSources := @decodeVectorWithMaximum_reads _ "source file count" _ _ _ _
    (decodeText limits "source file") _ hsources fun _ _ _ hpart => decodeText_reads hpart
  apply hreadSources.bind
  have hreadFunctions := @decodeVectorWithMaximum_reads _ "function count" _ _ _ _
    (decodeFunction limits strict) _ hfunctions fun function hfunction part hpart =>
      decodeFunction_reads (hmachine function hfunction)
        (fun atom hatom => hreadable atom (List.mem_flatMap.mpr ⟨function, hfunction, hatom⟩)) hpart
  exact hreadFunctions.last

theorem decodeModule_yields : Yields (decodeModule limits strict) fun moduleValue items =>
    (CorePrepModule.machine moduleValue = true ∧ Readable moduleValue.atoms) ∧
      (strict = true → encodeModule limits moduleValue = .ok items) := by
  apply (@decodeQualifiedName_yields limits).bind
  intro name encodedName hname
  apply (@decodeVectorWithMaximum_yields_encoded "source file count" _ _ _ _ _
    (@decodeText_yields limits "source file" _)).bind
  intro sources encodedSources hsources
  apply (@decodeVectorWithMaximum_yields "function count" _ _ _ _ _ _ _ decodeFunction_yields).last
  rintro functions encodedFunctions ⟨hall, hfunctions⟩
  rw [CorePrepModule.machine, List.all_eq_true]
  refine ⟨⟨fun function hfunction => (hall function hfunction).1, ?_⟩, ?_⟩
  · intro atom hatom
    obtain ⟨function, hfunction, hatom⟩ := List.mem_flatMap.mp hatom
    exact (hall function hfunction).2 atom hatom
  · intro hstrict
    simp only [encodeModule, hname, hsources, hfunctions hstrict]
    rfl

/-! ## Documents -/

/-- The form of a document around the encoding of its module. -/
def documentBytes (payload : Bytes) : Bytes := wireMagic ++ (word16 currentWireVersion ++ (word16 0 ++ payload))

theorem encodeCorePrepWith_eq_ok :
    encodeCorePrepWith limits moduleValue = .ok bytes ↔
      ∃ payload, encodeModule limits moduleValue = .ok payload ∧ bytes = documentBytes payload ∧
        (bytes.length : Int) ≤ limits.maximumWireBytes := by
  constructor
  · intro h
    obtain ⟨payload, hpayload, h⟩ := bind_eq_ok.mp h
    obtain ⟨_, hrequire, h⟩ := bind_eq_ok.mp h
    cases h
    exact ⟨payload, hpayload, rfl, requireLimit_eq_ok.mp hrequire⟩
  · rintro ⟨payload, hpayload, rfl, hlength⟩
    apply bind_eq_ok.mpr
    refine ⟨payload, hpayload, ?_⟩
    apply bind_eq_ok.mpr
    exact ⟨(), requireLimit_eq_ok.mpr hlength, rfl⟩

theorem decodeDocument_reads {moduleValue : CorePrepModule} {payload : Bytes}
    (hread : Reads (decodeModule limits strict) payload moduleValue) :
    Reads (decodeDocument limits strict) (documentBytes payload) moduleValue := by
  apply (takeBytes_reads "magic" (rfl : wireMagic.length = 4)).bind
  apply (Reads.require _ (decide_eq_true rfl)).step
  apply (readWord16_reads _ (by decide)).bind
  apply (Reads.require _ (decide_eq_true rfl)).step
  apply (readWord16_reads _ (by decide)).bind
  exact (Reads.require _ (decide_eq_true rfl)).step hread

theorem decodeDocument_yields {P : CorePrepModule → Bytes → Prop}
    (hyields : Yields (decodeModule limits strict) P) :
    Yields (decodeDocument limits strict) fun moduleValue items =>
      ∃ payload, P moduleValue payload ∧ items = documentBytes payload := by
  apply (takeBytes_yields _ _).bind
  rintro magic _ ⟨rfl, -⟩
  apply Yields.require
  intro hmagic
  apply (readWord16_yields _).bind
  rintro version _ rfl
  apply Yields.require
  intro hversion
  apply (readWord16_yields _).bind
  rintro flags _ rfl
  apply Yields.require
  intro hflags
  apply hyields.weaken
  intro moduleValue payload hpayload
  rw [of_decide_eq_true hmagic, of_decide_eq_true hversion, of_decide_eq_true hflags]
  exact ⟨payload, hpayload, rfl⟩

theorem readDocument_eq_ok :
    readDocument limits strict bytes = .ok moduleValue ↔
      (bytes.length : Int) ≤ limits.maximumWireBytes ∧
        ∃ next, decodeDocument limits strict ⟨bytes, 0⟩ = .ok (moduleValue, next) ∧ next.rest = [] := by
  unfold readDocument
  split
  · next hlength =>
    constructor
    · intro h
      cases h
    · rintro ⟨hle, -⟩
      omega
  · next hlength =>
    have hle : (bytes.length : Int) ≤ limits.maximumWireBytes := by omega
    constructor
    · intro h
      obtain ⟨⟨value, next⟩, hrun, h⟩ := bind_eq_ok.mp h
      dsimp only at h
      split at h
      · next hend =>
        cases h
        exact ⟨hle, next, hrun, List.isEmpty_iff.mp hend⟩
      · cases h
    · rintro ⟨-, next, hrun, hend⟩
      apply bind_eq_ok.mpr
      refine ⟨(moduleValue, next), hrun, ?_⟩
      dsimp only
      rw [hend]
      rfl

/-- A document that was written is read, also where names of types are refused. -/
theorem readDocument_of_encode
    (hmachine : CorePrepModule.machine moduleValue) (hreadable : Readable moduleValue.atoms)
    (h : encodeCorePrepWith limits moduleValue = .ok bytes) :
    readDocument limits strict bytes = .ok moduleValue := by
  obtain ⟨payload, hpayload, rfl, hlength⟩ := encodeCorePrepWith_eq_ok.mp h
  apply readDocument_eq_ok.mpr
  have hread := @decodeDocument_reads limits strict _ _ (decodeModule_reads hmachine hreadable hpayload)
  exact ⟨hlength, _, hread.run, rfl⟩

theorem readable_of_readDocument (h : readDocument limits strict bytes = .ok moduleValue) :
    CorePrepModule.machine moduleValue = true ∧ Readable moduleValue.atoms := by
  obtain ⟨-, next, hrun, hend⟩ := readDocument_eq_ok.mp h
  obtain ⟨payload, hpayload, -⟩ := (decodeDocument_yields decodeModule_yields).run hrun hend
  exact hpayload.1

/-- A document without names of types that have tags is the one that is written. -/
theorem encode_of_readDocument (h : readDocument limits true bytes = .ok moduleValue) :
    encodeCorePrepWith limits moduleValue = .ok bytes := by
  obtain ⟨hlength, next, hrun, hend⟩ := readDocument_eq_ok.mp h
  obtain ⟨payload, hpayload, hbytes⟩ := (decodeDocument_yields decodeModule_yields).run hrun hend
  exact encodeCorePrepWith_eq_ok.mpr ⟨payload, hpayload.2 rfl, hbytes, hlength⟩

/-! ## Both directions -/

/-- The null that the verifier and the writer admit and the reader does not. -/
def nullBool : CorePrepAtom := .corePrepLiteral .coreNull boolType

theorem typeSpelling_eq (valueType : Ty) : typeSpelling valueType = typeName valueType := by
  unfold typeSpelling typeName
  rfl

theorem integerWidths_names : integerWidths.map Prod.fst = "char" :: integerTypeNames := rfl

theorem isIntegerType_iff :
    isIntegerType valueType = true ↔ typeName valueType ∈ "char" :: integerTypeNames := by
  rw [← integerWidths_names, isIntegerType, List.any_eq_true, List.mem_map, typeSpelling_eq]
  exact exists_congr fun row => and_congr_right fun _ => decide_eq_true_iff

theorem not_readable_nullBool : ¬AtomReadable nullBool := by
  intro h
  cases h

theorem referenceLike_of_verified (h : CorePrep.referenceLike valueType = true)
    (hbool : valueType ≠ boolType) : referenceLike valueType = true := by
  cases valueType with
  | functionType parameters result => rfl
  | typeVariable name => cases h
  | errorType => cases h
  | namedType name arguments =>
      simp only [CorePrep.referenceLike, Bool.and_eq_true, Bool.not_eq_true', isNumericType, Bool.or_eq_false_iff,
        decide_eq_true_eq] at h
      obtain ⟨⟨hinteger, hfloating⟩, hunit⟩ := h
      have hinteger' : typeName (.namedType name arguments) ∉ "char" :: integerTypeNames := by
        intro hmem
        rw [isIntegerType_iff.mpr hmem] at hinteger
        cases hinteger
      have hfloating' : typeName (.namedType name arguments) ∉ floatingTypeNames := by
        intro hmem
        rw [isFloatingType, typeSpelling_eq] at hfloating
        exact Bool.false_ne_true (hfloating.symm.trans (List.contains_iff_mem.mpr hmem))
      -- the names that are left are those of unit and bool
      have hnames : ∀ name' ∈ ["bool", "unit"], typeName (.namedType name arguments) ≠ name' := by
        intro name' hname' heq
        have hscalar := eq_namedScalar heq (by rintro rfl; revert hname'; decide)
        rcases List.mem_cons.mp hname' with rfl | hname'
        · exact hbool hscalar
        · rw [List.mem_singleton.mp hname'] at hscalar
          exact hunit hscalar
      show (!(integerTypeNames ++ floatingTypeNames ++ ["char", "bool", "unit"]).contains _) = true
      rw [Bool.not_eq_true', ← Bool.not_eq_true, List.contains_iff_mem]
      intro hmem
      rcases List.mem_append.mp hmem with hmem | hmem
      · rcases List.mem_append.mp hmem with hmem | hmem
        · exact hinteger' (List.mem_cons_of_mem _ hmem)
        · exact hfloating' hmem
      · rcases List.mem_cons.mp hmem with hchar | hmem
        · exact hinteger' (hchar ▸ List.mem_cons_self)
        · exact hnames _ hmem rfl

/-- Apart from that null, what the verifier admits the reader takes. -/
theorem readable_of_verified (h : verifyAtom atom = []) (hnull : atom ≠ nullBool) : AtomReadable atom := by
  cases atom with
  | corePrepVariable name valueType => trivial
  | corePrepLiteral literal valueType =>
      obtain ⟨-, hliteral⟩ := List.append_eq_nil_iff.mp h
      simp only [verifyLiteral, reportWhen_eq_nil, Bool.not_eq_false'] at hliteral
      show literalAdmitted valueType (literalTag literal) = true
      cases literal with
      | coreUnit => exact hliteral
      | coreBoolean value => exact hliteral
      | coreString value => exact hliteral
      | coreInteger value =>
          have hmem : typeName valueType ∈ integerWidths.map Prod.fst := by
            simp only [integerFits, typeSpelling_eq] at hliteral
            split at hliteral
            · next row hrow =>
              have hmem := List.mem_filter.mp (hrow ▸ List.mem_cons_self)
              exact List.mem_map.mpr ⟨_, hmem.1, of_decide_eq_true hmem.2⟩
            · next row hrow =>
              have hmem := List.mem_filter.mp (hrow ▸ List.mem_cons_self)
              exact List.mem_map.mpr ⟨_, hmem.1, of_decide_eq_true hmem.2⟩
            · cases hliteral
          show (decide (typeName valueType = "char") || integerTypeNames.contains (typeName valueType)) = true
          rw [integerWidths_names] at hmem
          rw [Bool.or_eq_true, decide_eq_true_eq, List.contains_iff_mem]
          exact List.mem_cons.mp hmem
      | coreFloating spelling =>
          rw [Bool.and_eq_true] at hliteral
          have hfloating := hliteral.1
          rw [isFloatingType, typeSpelling_eq] at hfloating
          exact hfloating
      | coreNull =>
          have hbool : valueType ≠ boolType := by
            rintro rfl
            exact hnull rfl
          exact referenceLike_of_verified hliteral hbool

theorem nullBool_not_mem_of_decode (h : decodeCorePrep bytes = .ok moduleValue) : nullBool ∉ moduleValue.atoms := by
  intro hmem
  exact not_readable_nullBool ((readable_of_readDocument h).2 nullBool hmem)

/-- **The two directions of the format.** A verified module is read back as it was written exactly when it has
no null of type `bool`, and a document that is read is written back exactly when it gives every type that has
a tag of its own by that tag. -/
theorem corePrepWire_roundTrip (moduleValue : CorePrepModule) (bytes : Bytes) :
    (CorePrepModule.machine moduleValue → verifyCorePrep moduleValue = .ok moduleValue →
      encodeCorePrep moduleValue = .ok bytes →
        (decodeCorePrep bytes = .ok moduleValue ↔ nullBool ∉ moduleValue.atoms)) ∧
    (decodeCorePrep bytes = .ok moduleValue →
      (encodeCorePrep moduleValue = .ok bytes ↔ SpellsTypesByTag bytes)) := by
  constructor
  · intro hmachine hverified hencode
    constructor
    · exact nullBool_not_mem_of_decode
    · intro hnull
      apply readDocument_of_encode hmachine _ hencode
      intro atom hatom
      apply readable_of_verified (verifyAtom_of_verifyCorePrep hverified atom hatom)
      rintro rfl
      exact hnull hatom
  · intro hdecode
    obtain ⟨hmachine, hreadable⟩ := readable_of_readDocument hdecode
    constructor
    · intro hencode
      exact ⟨moduleValue, readDocument_of_encode hmachine hreadable hencode⟩
    · rintro ⟨other, hother⟩
      have hencode := encode_of_readDocument hother
      obtain ⟨hmachine', hreadable'⟩ := readable_of_readDocument hother
      -- both readers give the same module
      have hsame : decodeCorePrep bytes = .ok other := readDocument_of_encode hmachine' hreadable' hencode
      rw [hdecode] at hsame
      cases hsame
      exact hencode

/-- A function that returns a literal. -/
def literalModule (literal : CoreLiteral) (valueType : Ty) : CorePrepModule where
  corePrepModuleName := ["m"]
  corePrepModuleFunctions := [⟨⟨1, "f"⟩, "a", [], valueType, 0,
    [⟨0, [], .corePrepReturn (.corePrepLiteral literal valueType)⟩]⟩]
  corePrepModuleSourceFiles := ["a"]

theorem corePrepWire_roundTrip_unit : ∃ bytes, encodeCorePrep (literalModule .coreUnit unitType) = .ok bytes ∧
    (decodeCorePrep bytes = .ok (literalModule .coreUnit unitType) ↔
      nullBool ∉ (literalModule .coreUnit unitType).atoms) :=
  ⟨_, rfl, (corePrepWire_roundTrip (literalModule .coreUnit unitType) _).1 (by decide) (by rfl) rfl⟩

/-- `int`, spelled as a named type. -/
def namedInt : Bytes := [6, 1, 0, 0, 0, 3, 0, 0, 0, 105, 0, 0, 0, 110, 0, 0, 0, 116, 0, 0, 0, 0, 0, 0, 0]

theorem decodeVectorWithMaximum_empty {α : Type} (context : String) {maximumCount : Int}
    (parser : WireDecoder α) (h : 0 ≤ maximumCount) :
    Reads (decodeVectorWithMaximum context maximumCount parser) [0, 0, 0, 0] [] :=
  (readWord32_reads context (show 0 < 2 ^ 32 by decide)).bind
    ((Reads.require _ (decide_eq_true h)).step (Reads.pure []))

theorem decodeType_namedInt : Reads (decodeType defaultWireLimits false) namedInt intType := by
  show Reads (decodeTypeAt defaultWireLimits false (128 + 1)) namedInt intType
  rw [decodeTypeAt]
  have hname : encodeQualifiedName defaultWireLimits ["int"]
      = .ok [1, 0, 0, 0, 3, 0, 0, 0, 105, 0, 0, 0, 110, 0, 0, 0, 116, 0, 0, 0] := rfl
  apply Reads.item (readWord8_reads _ 6 rfl)
  apply (decodeQualifiedName_reads hname).bind
  exact @Reads.checked _ _ _ _ _
    (fun arguments => !(false && (primitiveTypeTag (.namedType ["int"] arguments)).isSome)) _
    (Ty.namedType ["int"]) _ _ (decodeVectorWithMaximum_empty _ _ (by decide)) rfl

/-- A function without blocks; its document below spells the result type by name. -/
def spelledFunction : CorePrepFunction := ⟨⟨1, "f"⟩, "", [], intType, 0, []⟩

def spelledModule : CorePrepModule := ⟨["m"], [spelledFunction], []⟩

theorem decodeFunction_spelledFunction : Reads (decodeFunction defaultWireLimits false)
    (([1, 0, 0, 0, 0, 0, 0, 0] ++ [1, 0, 0, 0, 102, 0, 0, 0]) ++ ([0, 0, 0, 0] ++ ([0, 0, 0, 0]
      ++ (namedInt ++ ([0, 0, 0, 0] ++ [0, 0, 0, 0]))))) spelledFunction := by
  have hsymbol : encodeResolvedName defaultWireLimits "" ⟨1, "f"⟩
      = .ok ([1, 0, 0, 0, 0, 0, 0, 0] ++ [1, 0, 0, 0, 102, 0, 0, 0]) := rfl
  have hsource : encodeText defaultWireLimits "" "" = .ok [0, 0, 0, 0] := rfl
  have hentry : encodeNonNegative32 "" 0 = .ok [0, 0, 0, 0] := rfl
  apply (decodeResolvedName_reads rfl hsymbol).bind
  apply (decodeText_reads hsource).bind
  apply (decodeVectorWithMaximum_empty _ _ (by decide)).bind
  apply decodeType_namedInt.bind
  apply (decodeBlockId_reads hentry).bind
  exact (decodeVectorWithMaximum_empty _ _ (by decide)).last

theorem decodeModule_spelledModule : Reads (decodeModule defaultWireLimits false)
    ([1, 0, 0, 0, 1, 0, 0, 0, 109, 0, 0, 0] ++ ([0, 0, 0, 0] ++ ([1, 0, 0, 0]
      ++ ((([1, 0, 0, 0, 0, 0, 0, 0] ++ [1, 0, 0, 0, 102, 0, 0, 0]) ++ ([0, 0, 0, 0] ++ ([0, 0, 0, 0]
      ++ (namedInt ++ ([0, 0, 0, 0] ++ [0, 0, 0, 0]))))) ++ [])))) spelledModule := by
  have hname : encodeQualifiedName defaultWireLimits ["m"] = .ok [1, 0, 0, 0, 1, 0, 0, 0, 109, 0, 0, 0] := rfl
  apply (decodeQualifiedName_reads hname).bind
  apply (decodeVectorWithMaximum_empty _ _ (by decide)).bind
  have hfunctions : Reads (decodeVectorWithMaximum "function count" defaultWireLimits.maximumFunctions
      (decodeFunction defaultWireLimits false)) _ [spelledFunction] :=
    (@readWord32_reads "function count" 1 (by decide)).bind ((Reads.require _ (by decide)).step
      (decodeFunction_spelledFunction.bind (Reads.pure []).last))
  exact hfunctions.last

/-- A document with one function, whose result type is spelled so. -/
def spelledDocument : Bytes :=
  documentBytes ([1, 0, 0, 0, 1, 0, 0, 0, 109, 0, 0, 0] ++ ([0, 0, 0, 0] ++ ([1, 0, 0, 0]
    ++ ((([1, 0, 0, 0, 0, 0, 0, 0] ++ [1, 0, 0, 0, 102, 0, 0, 0]) ++ ([0, 0, 0, 0] ++ ([0, 0, 0, 0]
    ++ (namedInt ++ ([0, 0, 0, 0] ++ [0, 0, 0, 0]))))) ++ []))))

theorem decodeCorePrep_spelledDocument : decodeCorePrep spelledDocument = .ok spelledModule := by
  have hread : Reads (decodeDocument defaultWireLimits false) spelledDocument spelledModule :=
    decodeDocument_reads decodeModule_spelledModule
  have hlength : (spelledDocument.length : Int) ≤ defaultWireLimits.maximumWireBytes := by decide
  unfold decodeCorePrep decodeCorePrepWith
  apply readDocument_eq_ok.mpr
  exact ⟨hlength, _, hread.run, rfl⟩

theorem not_corePrepWire_roundTrip :
    (verifyCorePrep (literalModule .coreNull boolType) = .ok (literalModule .coreNull boolType) ∧
      ∃ bytes, encodeCorePrep (literalModule .coreNull boolType) = .ok bytes ∧
        decodeCorePrep bytes ≠ .ok (literalModule .coreNull boolType)) ∧
    ∃ moduleValue, decodeCorePrep spelledDocument = .ok moduleValue ∧
      encodeCorePrep moduleValue ≠ .ok spelledDocument := by
  constructor
  · refine ⟨by rfl, _, rfl, ?_⟩
    intro hdecode
    have hmem : nullBool ∈ (literalModule .coreNull boolType).atoms := List.mem_cons_self
    exact nullBool_not_mem_of_decode hdecode hmem
  · refine ⟨spelledModule, decodeCorePrep_spelledDocument, ?_⟩
    intro hencode
    -- the writer gives the result type by its tag
    have hwritten : ∃ bytes, encodeCorePrep spelledModule = .ok bytes ∧ bytes.length = 61 := ⟨_, rfl, rfl⟩
    obtain ⟨bytes, hbytes, hlength⟩ := hwritten
    rw [hbytes, Except.ok.injEq] at hencode
    rw [hencode] at hlength
    exact absurd hlength (by decide)

end Tala.CorePrep.Wire
