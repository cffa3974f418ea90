import Tala.Core.Verifier
import Tala.Core.Wire

/-!
# `Core.WireRoundTrip` — what the Core decoder reads from an encoded module

Each encoder is met by its decoder: the decoder takes exactly the octets that the encoder wrote and gives
back what was encoded. The sources of functions are written with each function, so the owners of a module
come back in the order of its functions.

The symbols of a module are machine integers, and so are the limits; `Machine` says so where the model
has `Int`.
-/

namespace Tala.Core.Wire

open Tala Tala.Core Tala.Library Tala.Library.Codec

/-- The limits are counts that a word of 32 bits can hold. -/
structure CoreWireLimits.Narrow (limits : CoreWireLimits) : Prop where
  text : limits.maximumCoreTextScalars < 2 ^ 32
  functions : limits.maximumCoreFunctions < 2 ^ 32
  parameters : limits.maximumCoreParameters < 2 ^ 32
  statements : limits.maximumCoreStatements < 2 ^ 32
  operands : limits.maximumCoreOperands < 2 ^ 32
  numeric : limits.maximumCoreNumericBytes < 2 ^ 32

/-! ## Names in range -/

/-- The symbol is a machine integer. -/
def ResolvedName.machine (name : ResolvedName) : Bool := name.resolvedSymbol < 2 ^ 63

def TemplateValue.machine : TemplateValue → Bool
  | .templateValueParameter name => ResolvedName.machine name
  | _ => true

mutual

def Ty.machine : Ty → Bool
  | .namedType _ arguments => TemplateArgument.machineAll arguments
  | .functionType parameters result => Ty.machineAll parameters && Ty.machine result
  | .typeVariable name => ResolvedName.machine name
  | .errorType => true
termination_by structural valueType => valueType

def Ty.machineAll : List Ty → Bool
  | [] => true
  | valueType :: types => Ty.machine valueType && Ty.machineAll types
termination_by structural types => types

def TemplateArgument.machine : TemplateArgument → Bool
  | .typeTemplateArgument valueType => Ty.machine valueType
  | .valueTemplateArgument value => TemplateValue.machine value
termination_by structural argument => argument

def TemplateArgument.machineAll : List TemplateArgument → Bool
  | [] => true
  | argument :: arguments => TemplateArgument.machine argument && TemplateArgument.machineAll arguments
termination_by structural arguments => arguments

end

def parameterMachine (parameter : ResolvedName × Ty) : Bool :=
  ResolvedName.machine parameter.1 && Ty.machine parameter.2

mutual

def CoreExpression.machine : CoreExpression → Bool
  | .coreVariable name valueType => ResolvedName.machine name && Ty.machine valueType
  | .coreLiteral _ valueType => Ty.machine valueType
  | .coreApply callee arguments valueType =>
      CoreExpression.machine callee && CoreExpression.machineAll arguments && Ty.machine valueType
  | .corePrimitive _ arguments valueType => CoreExpression.machineAll arguments && Ty.machine valueType
  | .coreLet name bindingType value body valueType =>
      ResolvedName.machine name && Ty.machine bindingType && CoreExpression.machine value
        && CoreExpression.machine body && Ty.machine valueType
  | .coreConditional condition whenTrue whenFalse valueType =>
      CoreExpression.machine condition && CoreExpression.machine whenTrue
        && CoreExpression.machine whenFalse && Ty.machine valueType
  | .coreClosure captures parameters returnType body valueType =>
      CoreCapture.machineAll captures && parameters.all parameterMachine && Ty.machine returnType
        && CoreStatement.machineAll body && Ty.machine valueType
termination_by structural expression => expression

def CoreExpression.machineAll : List CoreExpression → Bool
  | [] => true
  | expression :: expressions =>
      CoreExpression.machine expression && CoreExpression.machineAll expressions
termination_by structural expressions => expressions

def CoreCapture.machine : CoreCapture → Bool
  | .coreCapture _ name type value =>
      ResolvedName.machine name && Ty.machine type && CoreExpression.machine value
termination_by structural capture => capture

def CoreCapture.machineAll : List CoreCapture → Bool
  | [] => true
  | capture :: captures => CoreCapture.machine capture && CoreCapture.machineAll captures
termination_by structural captures => captures

def CoreStatement.machine : CoreStatement → Bool
  | .coreBind name type _ value =>
      ResolvedName.machine name && Ty.machine type && CoreExpression.machine value
  | .coreAssign name value => ResolvedName.machine name && CoreExpression.machine value
  | .coreReturn value => CoreExpression.machine value
  | .coreIf condition whenTrue whenFalse =>
      CoreExpression.machine condition && CoreStatement.machineAll whenTrue
        && CoreStatement.machineAll whenFalse
  | .coreEvaluate value => CoreExpression.machine value
  | .coreWhile condition body => CoreExpression.machine condition && CoreStatement.machineAll body
  | .coreDoWhile body condition => CoreStatement.machineAll body && CoreExpression.machine condition
  | .coreFor condition body update =>
      CoreExpression.machine condition && CoreStatement.machineAll body && CoreStatement.machineAll update
  | .coreBreak => true
  | .coreContinue => true
termination_by structural statement => statement

def CoreStatement.machineAll : List CoreStatement → Bool
  | [] => true
  | statement :: statements => CoreStatement.machine statement && CoreStatement.machineAll statements
termination_by structural statements => statements

end

def CoreFunction.machine (function : CoreFunction) : Bool :=
  ResolvedName.machine function.coreFunctionName && function.coreFunctionParameters.all parameterMachine
    && Ty.machine function.coreFunctionReturnType && CoreStatement.machineAll function.coreFunctionBody

/-- The symbols of the functions of a module, and of all that they mention, are machine integers. -/
def CoreModule.machine (moduleValue : CoreModule) : Bool :=
  moduleValue.coreModuleFunctions.all CoreFunction.machine

/-! ## Words -/

theorem byte_eq (value amount : Nat) : byte value amount = UInt8.ofNat (value / 2 ^ amount) := by
  rw [byte, Nat.shiftRight_eq_div_pow]

theorem word16_eq (value : Nat) : word16 value = littleEndian 2 value := by
  simp [word16, byte_eq, littleEndian]

theorem word32_eq (value : Nat) : word32 value = littleEndian 4 value := by
  simp [word32, byte_eq, littleEndian, Nat.div_div_eq_div_mul]

theorem word64_eq (value : Nat) : word64 value = littleEndian 8 value := by
  simp [word64, byte_eq, littleEndian, Nat.div_div_eq_div_mul]

variable {value : Nat} {tag : UInt8} {maximumValue : Int}

theorem readWord_reads (context : String) {width : Nat} (h : value < 256 ^ width) :
    Reads (readWord context width) (littleEndian width value) value := by
  have hread : Reads (readWord context width) (littleEndian width value)
      (ofLittleEndian (littleEndian width value)) :=
    (Reads.take _ (length_littleEndian width value)).last
  rwa [ofLittleEndian_littleEndian, Nat.mod_eq_of_lt h] at hread

theorem readWord16_reads (context : String) (h : value < 2 ^ 16) :
    Reads (readWord16 context) (word16 value) value := by
  rw [word16_eq]
  exact readWord_reads context (by omega)

theorem readWord32_reads (context : String) {value : Nat} (h : value < 2 ^ 32) :
    Reads (readWord32 context) (word32 value) value := by
  rw [word32_eq]
  exact readWord_reads context (by omega)

theorem readWord64_reads (context : String) (h : value < 2 ^ 64) :
    Reads (readWord64 context) (word64 value) value := by
  rw [word64_eq]
  exact readWord_reads context (by omega)

/-- A tag. -/
theorem readWord8_reads (context : String) (value : Nat) (h : tag.toNat = value) :
    Reads (readWord8 context) [tag] value := by
  subst h
  have hread : Reads (readWord context 1) (littleEndian 1 tag.toNat) tag.toNat :=
    readWord_reads context tag.toNat_lt
  rwa [littleEndian, littleEndian, UInt8.ofNat_toNat] at hread

theorem requireDecode_reads {condition : Bool} (kind : CoreWireErrorKind) (context message : String)
    (h : condition = true) : Reads (requireDecode condition kind context message) [] () :=
  Reads.require _ h

theorem decodeBool_reads (context : String) (value : Bool) :
    Reads (decodeBool context) (encodeBool value) value := by
  cases value with
  | false => exact Reads.item (readWord8_reads context 0 rfl) (Reads.pure false)
  | true => exact Reads.item (readWord8_reads context 1 rfl) (Reads.pure true)

variable {context : String} {bytes : Bytes} {limits : CoreWireLimits}

theorem requireEncode_eq_ok {actual : Nat}
    (h : requireEncode context maximumValue actual = .ok ()) : (actual : Int) ≤ maximumValue := by
  unfold requireEncode at h
  split at h
  · cases h
  · omega

/-! ## Vectors and texts -/

variable {count : Nat} {value name : String} {depth : Int} {moduleValue accepted : CoreModule}

/-- What was written for a vector. -/
theorem encodeVector_eq_ok {elements : Encoder} (h : encodeVector context maximumValue count elements = .ok bytes) :
    (count : Int) ≤ maximumValue ∧ ∃ body, elements = .ok body ∧ bytes = word32 count ++ body := by
  obtain ⟨_, hrequire, h⟩ := bind_eq_ok.mp h
  obtain ⟨body, helements, h⟩ := bind_eq_ok.mp h
  cases h
  exact ⟨requireEncode_eq_ok hrequire, body, helements, rfl⟩

theorem decodeVectorMaximum_reads {α : Type} {context context' : String} {maximumValue : Int}
    {count : Nat} {elements : Encoder} {bytes : Bytes} {decoder : CoreDecoder α} {values : List α}
    (hnarrow : maximumValue < 2 ^ 32) (h : encodeVector context maximumValue count elements = .ok bytes)
    (hread : ∀ body, elements = .ok body → body.length ≤ bytes.length →
      Reads (Decoder.many count decoder) body values) :
    Reads (decodeVectorMaximum context' maximumValue decoder) bytes values := by
  obtain ⟨hcount, body, helements, rfl⟩ := encodeVector_eq_ok h
  refine (readWord32_reads context' (by omega)).bind ?_
  refine (requireDecode_reads _ _ _ (by simpa using hcount)).step ?_
  exact hread body helements (by rw [List.length_append]; omega)

variable {context' : String} {fuel : Nat}

theorem decodeScalar_reads {character : Char} (h : encodeScalar context character = .ok bytes) :
    Reads (decodeScalar context') bytes character := by
  unfold encodeScalar at h
  dsimp only at h
  split at h
  · cases h
  · next hsurrogate =>
    split at h
    · cases h
    · next hrange =>
      cases h
      have hread : Reads (decodeScalar context') (word32 character.toNat ++ [])
          (Char.ofNat character.toNat) := by
        refine (readWord32_reads context' (by omega)).bind ?_
        refine (requireDecode_reads _ _ _ ?_).step (Reads.pure _)
        simp_all
        omega
      rwa [List.append_nil, Char.ofNat_toNat] at hread

theorem decodeText_reads (hnarrow : limits.Narrow) (h : encodeText limits context value = .ok bytes) :
    Reads (decodeText limits context') bytes value := by
  obtain ⟨hcount, body, helements, rfl⟩ := encodeVector_eq_ok h
  have htext := hnarrow.text
  refine (readWord32_reads _ (by omega)).bind ?_
  refine (requireDecode_reads _ _ _ (by simpa using hcount)).step ?_
  have hcharacters : Reads (Decoder.many value.toList.length (decodeScalar context')) body value.toList :=
    Reads.many helements fun character _ part hpart _ => decodeScalar_reads hpart
  have hmany := @Reads.last _ _ _ _ _ String.ofList _ _ hcharacters
  rwa [String.ofList_toList] at hmany

theorem decodeResolvedName_reads
    {name : ResolvedName} (hnarrow : limits.Narrow) (hmachine : ResolvedName.machine name)
    (h : encodeResolvedName limits context name = .ok bytes) :
    Reads (decodeResolvedName limits context') bytes name := by
  have hupper : name.resolvedSymbol < 2 ^ 63 := by simpa [ResolvedName.machine] using hmachine
  unfold encodeResolvedName at h
  split at h
  · cases h
  · next hpositive =>
    obtain ⟨spelling, hspelling, h⟩ := bind_eq_ok.mp h
    cases h
    refine (readWord64_reads context' (by omega)).bind ?_
    refine (requireDecode_reads _ _ _ (by simp; omega)).step ?_
    rw [Int.toNat_of_nonneg (by omega)]
    exact (decodeText_reads hnarrow hspelling).last

theorem decodeQualifiedName_reads {name : QualifiedName}
    (hnarrow : limits.Narrow) (h : encodeQualifiedName limits name = .ok bytes) :
    Reads (decodeQualifiedName limits) bytes name := by
  refine decodeVectorMaximum_reads (by omega) h fun body hbody _ => ?_
  exact Reads.many hbody fun part _ encoded hencoded _ => decodeText_reads hnarrow hencoded

/-! ## Numbers -/

theorem takeBytes_reads (context : String) (h : bytes.length = count) :
    Reads (takeBytes context count) bytes bytes :=
  Reads.take _ h

theorem foldl_cast (list : Bytes) (start : Nat) :
    (list.foldl (fun result octet => result * 256 + (octet.toNat : Int)) (start : Int) : Int)
      = (list.foldl (fun result octet => result * 256 + octet.toNat) start : Nat) := by
  induction list generalizing start with
  | nil => rfl
  | cons octet list ih =>
      rw [List.foldl_cons, List.foldl_cons, ← ih]
      push_cast
      rfl

/-- A magnitude reads back as the number it was made from. -/
theorem integerMagnitude_value (value : Nat) :
    ((integerMagnitude value).foldl (fun result octet => result * 256 + (octet.toNat : Int)) 0 : Int)
      = value := by
  have h := foldl_cast (integerMagnitude value) 0
  rw [integerMagnitude, foldl_octets, ofLittleEndian_octets] at h
  exact h

theorem canonicalMagnitude_integerMagnitude (value : Nat) :
    canonicalMagnitude (integerMagnitude value) = true := by
  unfold canonicalMagnitude
  split
  · rfl
  · next first rest hmagnitude =>
    have hlast : (octets value).getLast? = some first := by
      rw [← List.head?_reverse]
      show (integerMagnitude value).head? = some first
      rw [hmagnitude]
      rfl
    simpa using octets_canonical first hlast

theorem integerMagnitude_isEmpty (value : Nat) : (integerMagnitude value).isEmpty = decide (value = 0) := by
  unfold integerMagnitude octets
  split
  · next h =>
    simp [h]
  · next h =>
    simp [h]

theorem sign_natAbs (value : Int) :
    (if decide (value < 0) = true then -(value.natAbs : Int) else value.natAbs) = value := by
  simp only [decide_eq_true_eq]
  split <;> omega

theorem decodeInteger_reads {value : Int} (hnarrow : limits.Narrow) (h : encodeInteger limits value = .ok bytes) :
    Reads (decodeInteger limits) bytes value := by
  obtain ⟨_, hrequire, h⟩ := bind_eq_ok.mp h
  cases h
  have hcount := requireEncode_eq_ok hrequire
  have hnumeric := hnarrow.numeric
  refine (decodeBool_reads "integer sign" (value < 0)).bind ?_
  refine (readWord32_reads _ (by omega)).bind ?_
  refine (requireDecode_reads _ _ _ (by simpa using hcount)).step ?_
  rw [← List.append_nil (integerMagnitude value.natAbs)]
  refine (takeBytes_reads _ (by rw [List.append_nil])).bind ?_
  refine (requireDecode_reads _ _ _ (canonicalMagnitude_integerMagnitude _)).step ?_
  refine (requireDecode_reads _ _ _ ?_).step ?_
  · rw [integerMagnitude_isEmpty]
    simp
    omega
  · show Reads (pure (if decide (value < 0) = true then
      -(integerMagnitude value.natAbs).foldl (fun result octet => result * 256 + (octet.toNat : Int)) 0
      else (integerMagnitude value.natAbs).foldl (fun result octet => result * 256 + (octet.toNat : Int)) 0))
      [] value
    rw [integerMagnitude_value]
    rw [sign_natAbs]
    exact Reads.pure value

/-- ASCII characters are their octets. -/
theorem encodeAscii_eq_ok {characters : List Char}
    (h : encodeAll (encodeAsciiCharacter context) characters = .ok bytes) :
    bytes.length = characters.length ∧ (bytes.all fun octet => octet.toNat ≤ 0x7f) = true
      ∧ (bytes.map fun octet => Char.ofNat octet.toNat) = characters := by
  induction characters generalizing bytes with
  | nil =>
      cases h
      exact ⟨rfl, rfl, rfl⟩
  | cons character characters ih =>
      obtain ⟨first, hfirst, h⟩ := bind_eq_ok.mp h
      obtain ⟨others, hothers, h⟩ := bind_eq_ok.mp h
      cases h
      obtain ⟨hlength, hall, hmap⟩ := ih hothers
      unfold encodeAsciiCharacter at hfirst
      split at hfirst
      · next hascii =>
        cases hfirst
        have hoctet : (UInt8.ofNat character.toNat).toNat = character.toNat := by
          rw [toNat_octet, Nat.mod_eq_of_lt (by omega)]
        refine ⟨by simp [hlength], ?_, ?_⟩
        · rw [List.all_append, hall]
          simp only [List.all_cons, List.all_nil, hoctet, hascii, decide_true, Bool.and_self]
        · rw [List.map_append, hmap, List.map_cons, hoctet, Char.ofNat_toNat]
          rfl
      · cases hfirst

theorem decodeAscii_reads (hnarrow : limits.Narrow) (h : encodeAscii limits context value = .ok bytes) :
    Reads (decodeAscii limits context') bytes value := by
  obtain ⟨_, hrequire, h⟩ := bind_eq_ok.mp h
  obtain ⟨characters, hcharacters, h⟩ := bind_eq_ok.mp h
  cases h
  have hcount := requireEncode_eq_ok hrequire
  have hnumeric := hnarrow.numeric
  obtain ⟨hlength, hall, hmap⟩ := encodeAscii_eq_ok hcharacters
  refine (readWord32_reads _ (by omega)).bind ?_
  refine (requireDecode_reads _ _ _ (by simpa using hcount)).step ?_
  have hread : Reads (takeBytes context' value.toList.length >>= fun bytes => do
      requireDecode (bytes.all fun octet => octet.toNat ≤ 0x7f) .coreInvalidInteger context'
        "numeric spelling must contain ASCII characters only"
      pure (String.ofList (bytes.map fun octet => Char.ofNat octet.toNat)))
      (characters ++ []) (String.ofList (characters.map fun octet => Char.ofNat octet.toNat)) :=
    (takeBytes_reads _ hlength).bind ((requireDecode_reads _ _ _ hall).step (Reads.pure _))
  rwa [List.append_nil, hmap, String.ofList_toList] at hread

theorem decodeLiteral_reads {literal : CoreLiteral}
    (hnarrow : limits.Narrow) (h : encodeLiteral limits literal = .ok bytes) :
    Reads (decodeLiteral limits) bytes literal := by
  cases literal with
  | coreUnit =>
      cases h
      exact Reads.item (readWord8_reads _ 0 rfl) (Reads.pure _)
  | coreBoolean value =>
      cases h
      exact Reads.item (readWord8_reads _ 1 rfl) (decodeBool_reads _ value).last
  | coreInteger value =>
      obtain ⟨encoded, hencoded, h⟩ := bind_eq_ok.mp h
      cases h
      exact Reads.item (readWord8_reads _ 4 rfl) (decodeInteger_reads hnarrow hencoded).last
  | coreFloating spelling =>
      obtain ⟨encoded, hencoded, h⟩ := bind_eq_ok.mp h
      cases h
      exact Reads.item (readWord8_reads _ 5 rfl) (decodeAscii_reads hnarrow hencoded).last
  | coreString value =>
      obtain ⟨encoded, hencoded, h⟩ := bind_eq_ok.mp h
      cases h
      exact Reads.item (readWord8_reads _ 3 rfl) (decodeText_reads hnarrow hencoded).last
  | coreNull =>
      cases h
      exact Reads.item (readWord8_reads _ 6 rfl) (Reads.pure _)

/-! ## Types -/

theorem scalarTypeTag_eq_some {valueType : Ty} (h : scalarTypeTag valueType = some tag) :
    ∃ name, valueType = namedType name ∧ scalarTags.lookup name = some tag := by
  unfold scalarTypeTag at h
  split at h
  · exact ⟨_, rfl, h⟩
  · cases h

/-- The rows of the scalar tags, each by its name and by its tag. -/
theorem scalarTags_find (h : scalarTags.lookup name = some tag) :
    scalarTags.find? (fun row => row.2.toNat = tag.toNat) = some (name, tag) ∧ 6 < tag.toNat := by
  rw [List.lookup_eq_some_iff] at h
  obtain ⟨before, after, hsplit, _⟩ := h
  have hmem : (name, tag) ∈ scalarTags := by
    rw [hsplit]
    simp
  have hrows : ∀ row ∈ scalarTags,
      scalarTags.find? (fun row' => row'.2.toNat = row.2.toNat) = some row ∧ 6 < row.2.toNat := by
    decide
  exact hrows _ hmem

/-- The last case of the decoder of types. -/
theorem decodeType_scalar (limits : CoreWireLimits)
    (hdepth : depth ≤ limits.maximumCoreTypeDepth) (h : scalarTags.lookup name = some tag) :
    Reads (decodeType limits (fuel + 1) depth) [tag] (namedType name) := by
  obtain ⟨hfind, htag⟩ := scalarTags_find h
  rw [decodeType]
  refine (requireDecode_reads _ _ _ (decide_eq_true hdepth)).step ?_
  refine Reads.item (readWord8_reads _ _ rfl) ?_
  split
  case h_8 =>
    rw [hfind]
    exact Reads.pure _
  all_goals omega

theorem decodeTemplateValue_reads {value : TemplateValue}
    (hnarrow : limits.Narrow) (hmachine : TemplateValue.machine value)
    (h : encodeTemplateValue limits value = .ok bytes) :
    Reads (decodeTemplateArgument limits (fuel + 1) depth) bytes (.valueTemplateArgument value) := by
  rw [decodeTemplateArgument]
  cases value with
  | integerTemplateValue integer =>
      obtain ⟨encoded, hencoded, h⟩ := bind_eq_ok.mp h
      cases h
      exact Reads.item (readWord8_reads _ 1 rfl) (decodeInteger_reads hnarrow hencoded).last
  | booleanTemplateValue boolean =>
      cases h
      exact Reads.item (readWord8_reads _ 2 rfl) (decodeBool_reads _ boolean).last
  | characterTemplateValue scalar =>
      obtain ⟨encoded, hencoded, h⟩ := bind_eq_ok.mp h
      cases h
      exact Reads.item (readWord8_reads _ 3 rfl) (decodeInteger_reads hnarrow hencoded).last
  | templateValueParameter name =>
      obtain ⟨encoded, hencoded, h⟩ := bind_eq_ok.mp h
      cases h
      exact Reads.item (readWord8_reads _ 4 rfl)
        (decodeResolvedName_reads hnarrow hmachine hencoded).last

/-- With room for an item there is fuel. -/
theorem fuel_succ {item : UInt8} {others : Bytes} (h : (item :: others).length ≤ fuel) :
    ∃ fuel', fuel = fuel' + 1 ∧ others.length ≤ fuel' := by
  rw [List.length_cons] at h
  exact ⟨fuel - 1, by omega, by omega⟩

section Narrow

variable (hnarrow : limits.Narrow)

include hnarrow

-- lists use it through the recursion
set_option linter.unusedSectionVars false in
mutual

theorem decodeType_reads :
    ∀ (valueType : Ty) {fuel : Nat} {depth : Int} {bytes : Bytes}, Ty.machine valueType →
      encodeType limits depth valueType = .ok bytes → bytes.length ≤ fuel →
      Reads (decodeType limits fuel depth) bytes valueType := by
  intro valueType fuel depth bytes hmachine h hfuel
  rw [encodeType.eq_def] at h
  split at h
  · cases h
  next hdepth =>
  have hdepth' : decide (depth ≤ limits.maximumCoreTypeDepth) = true := decide_eq_true (by omega)
  split at h
  · next heq =>
    cases h
    obtain ⟨fuel, rfl, _⟩ := fuel_succ hfuel
    rw [heq, decodeType]
    exact (requireDecode_reads _ _ _ hdepth').step
      (Reads.item (readWord8_reads _ 0 rfl) (Reads.pure _))
  split at h
  · next heq =>
    cases h
    obtain ⟨fuel, rfl, _⟩ := fuel_succ hfuel
    rw [heq, decodeType]
    exact (requireDecode_reads _ _ _ hdepth').step
      (Reads.item (readWord8_reads _ 1 rfl) (Reads.pure _))
  split at h
  · next heq =>
    cases h
    obtain ⟨fuel, rfl, _⟩ := fuel_succ hfuel
    rw [heq, decodeType]
    exact (requireDecode_reads _ _ _ hdepth').step
      (Reads.item (readWord8_reads _ 2 rfl) (Reads.pure _))
  split at h
  · next heq =>
    cases h
    obtain ⟨fuel, rfl, _⟩ := fuel_succ hfuel
    rw [heq, decodeType]
    exact (requireDecode_reads _ _ _ hdepth').step
      (Reads.item (readWord8_reads _ 3 rfl) (Reads.pure _))
  split at h
  · next scalarTag htag =>
    cases h
    obtain ⟨fuel, rfl, _⟩ := fuel_succ hfuel
    obtain ⟨name, rfl, hlookup⟩ := scalarTypeTag_eq_some htag
    exact decodeType_scalar limits (by omega) hlookup
  cases valueType with
  | namedType name arguments =>
      obtain ⟨encodedName, hname, h⟩ := bind_eq_ok.mp h
      obtain ⟨encodedArguments, harguments, h⟩ := bind_eq_ok.mp h
      cases h
      obtain ⟨fuel, rfl, hrest⟩ := fuel_succ hfuel
      rw [List.length_append] at hrest
      rw [Ty.machine] at hmachine
      rw [decodeType]
      refine (requireDecode_reads _ _ _ hdepth').step (Reads.item (readWord8_reads _ 4 rfl) ?_)
      refine (decodeQualifiedName_reads hnarrow hname).bind (Reads.last ?_)
      refine decodeVectorMaximum_reads hnarrow.operands harguments fun body hbody hlength => ?_
      exact decodeTemplateArguments_reads arguments hmachine hbody (by omega)
  | functionType parameters result =>
      obtain ⟨encodedParameters, hparameters, h⟩ := bind_eq_ok.mp h
      obtain ⟨encodedResult, hresult, h⟩ := bind_eq_ok.mp h
      cases h
      obtain ⟨fuel, rfl, hrest⟩ := fuel_succ hfuel
      rw [List.length_append] at hrest
      rw [Ty.machine, Bool.and_eq_true] at hmachine
      rw [decodeType]
      refine (requireDecode_reads _ _ _ hdepth').step (Reads.item (readWord8_reads _ 5 rfl) ?_)
      refine Reads.bind ?_ (decodeType_reads result hmachine.2 hresult (by omega)).last
      refine decodeVectorMaximum_reads hnarrow.parameters hparameters fun body hbody hlength => ?_
      exact decodeTypes_reads parameters hmachine.1 hbody (by omega)
  | typeVariable name =>
      obtain ⟨encodedName, hname, h⟩ := bind_eq_ok.mp h
      cases h
      obtain ⟨fuel, rfl, _⟩ := fuel_succ hfuel
      rw [decodeType]
      refine (requireDecode_reads _ _ _ hdepth').step (Reads.item (readWord8_reads _ 6 rfl) ?_)
      exact (decodeResolvedName_reads hnarrow (by rwa [Ty.machine] at hmachine) hname).last
  | errorType => cases h

theorem decodeTypes_reads :
    ∀ (types : List Ty) {fuel : Nat} {depth : Int} {bytes : Bytes}, Ty.machineAll types →
      encodeTypes limits depth types = .ok bytes → bytes.length ≤ fuel →
      Reads (Decoder.many types.length (decodeType limits fuel depth)) bytes types := by
  intro types fuel depth bytes hmachine h hfuel
  cases types with
  | nil =>
      rw [encodeTypes] at h
      cases h
      exact Reads.pure _
  | cons valueType types =>
      rw [encodeTypes] at h
      rw [Ty.machineAll, Bool.and_eq_true] at hmachine
      exact Reads.cons h hfuel (decodeType_reads valueType hmachine.1) (decodeTypes_reads types hmachine.2)

theorem decodeTemplateArgument_reads :
    ∀ (argument : TemplateArgument) {fuel : Nat} {depth : Int} {bytes : Bytes},
      TemplateArgument.machine argument → encodeTemplateArgument limits depth argument = .ok bytes →
      bytes.length ≤ fuel → Reads (decodeTemplateArgument limits fuel depth) bytes argument := by
  intro argument fuel depth bytes hmachine h hfuel
  cases argument with
  | typeTemplateArgument valueType =>
      rw [encodeTemplateArgument] at h
      obtain ⟨encoded, hencoded, h⟩ := bind_eq_ok.mp h
      cases h
      obtain ⟨fuel, rfl, hrest⟩ := fuel_succ hfuel
      rw [TemplateArgument.machine] at hmachine
      rw [decodeTemplateArgument]
      exact Reads.item (readWord8_reads _ 0 rfl)
        (decodeType_reads valueType hmachine hencoded hrest).last
  | valueTemplateArgument value =>
      rw [encodeTemplateArgument] at h
      rw [TemplateArgument.machine] at hmachine
      have hbytes : bytes ≠ [] := by
        intro hempty
        subst hempty
        cases value with
        | booleanTemplateValue boolean => cases h
        | integerTemplateValue integer =>
            obtain ⟨encoded, _, h⟩ := bind_eq_ok.mp h
            cases h
        | characterTemplateValue scalar =>
            obtain ⟨encoded, _, h⟩ := bind_eq_ok.mp h
            cases h
        | templateValueParameter name =>
            obtain ⟨encoded, _, h⟩ := bind_eq_ok.mp h
            cases h
      obtain ⟨fuel, rfl⟩ : ∃ fuel', fuel = fuel' + 1 :=
        ⟨fuel - 1, by have := List.length_pos_of_ne_nil hbytes; omega⟩
      exact decodeTemplateValue_reads hnarrow hmachine h

theorem decodeTemplateArguments_reads :
    ∀ (arguments : List TemplateArgument) {fuel : Nat} {depth : Int} {bytes : Bytes},
      TemplateArgument.machineAll arguments → encodeTemplateArguments limits depth arguments = .ok bytes →
      bytes.length ≤ fuel →
      Reads (Decoder.many arguments.length (decodeTemplateArgument limits fuel depth)) bytes arguments := by
  intro arguments fuel depth bytes hmachine h hfuel
  cases arguments with
  | nil =>
      rw [encodeTemplateArguments] at h
      cases h
      exact Reads.pure _
  | cons argument arguments =>
      rw [encodeTemplateArguments] at h
      rw [TemplateArgument.machineAll, Bool.and_eq_true] at hmachine
      exact Reads.cons h hfuel (decodeTemplateArgument_reads argument hmachine.1) (decodeTemplateArguments_reads arguments hmachine.2)

end

end Narrow

/-! ## Expressions and statements -/

theorem decodeParameter_reads (hnarrow : limits.Narrow)
    {parameter : ResolvedName × Ty} (hmachine : parameterMachine parameter)
    (h : encodeParameter limits parameter = .ok bytes) (hfuel : bytes.length ≤ fuel) :
    Reads (decodeParameter limits fuel) bytes parameter := by
  obtain ⟨name, hname, h⟩ := bind_eq_ok.mp h
  obtain ⟨valueType, htype, h⟩ := bind_eq_ok.mp h
  cases h
  rw [List.length_append] at hfuel
  rw [parameterMachine, Bool.and_eq_true] at hmachine
  exact (decodeResolvedName_reads hnarrow hmachine.1 hname).bind
    (decodeType_reads hnarrow parameter.2 hmachine.2 htype (by omega)).last

theorem decodeParameters_reads (hnarrow : limits.Narrow) {parameters : List (ResolvedName × Ty)}
    (hmachine : parameters.all parameterMachine)
    (h : encodeVector context limits.maximumCoreParameters parameters.length
      (encodeAll (encodeParameter limits) parameters) = .ok bytes) (hfuel : bytes.length ≤ fuel) :
    Reads (decodeVectorMaximum context' limits.maximumCoreParameters (decodeParameter limits fuel)) bytes
      parameters := by
  refine decodeVectorMaximum_reads hnarrow.parameters h fun body hbody hlength => ?_
  refine Reads.many hbody fun parameter hparameter part hpart hle => ?_
  exact decodeParameter_reads hnarrow (List.all_eq_true.mp hmachine parameter hparameter) hpart (by omega)

theorem decodePrimitive_reads (primitive : CorePrimitive) :
    Reads (readWord8 "primitive tag" >>= decodePrimitive) [primitiveTag primitive] primitive := by
  have hprimitive : decodePrimitive (primitiveTag primitive).toNat = pure primitive := by
    cases primitive <;> rfl
  refine Reads.item (readWord8_reads _ _ rfl) ?_
  rw [hprimitive]
  exact Reads.pure primitive

theorem decodeCaptureMode_reads (mode : CaptureMode) :
    Reads (readWord8 "closure capture mode" >>= decodeCaptureMode) [captureModeTag mode] mode := by
  have hmode : decodeCaptureMode (captureModeTag mode).toNat = pure mode := by
    cases mode <;> rfl
  refine Reads.item (readWord8_reads _ _ rfl) ?_
  rw [hmode]
  exact Reads.pure mode

section Narrow

variable (hnarrow : limits.Narrow)

include hnarrow

-- lists use it through the recursion
set_option linter.unusedSectionVars false in
mutual

theorem decodeExpression_reads :
    ∀ (expression : CoreExpression) {fuel : Nat} {depth : Int} {bytes : Bytes},
      CoreExpression.machine expression → encodeExpression limits depth expression = .ok bytes →
      bytes.length ≤ fuel → Reads (decodeExpression limits fuel depth) bytes expression := by
  intro expression fuel depth bytes hmachine h hfuel
  rw [encodeExpression.eq_def] at h
  split at h
  · cases h
  next hdepth =>
  have hdepth' : decide (depth ≤ limits.maximumCoreExpressionDepth) = true := decide_eq_true (by omega)
  cases expression with
  | coreVariable name valueType =>
      obtain ⟨encodedType, htype, h⟩ := bind_eq_ok.mp h
      obtain ⟨encodedName, hname, h⟩ := bind_eq_ok.mp h
      cases h
      obtain ⟨fuel, rfl, hrest⟩ := fuel_succ hfuel
      simp only [List.length_append] at hrest
      simp only [CoreExpression.machine, Bool.and_eq_true] at hmachine
      rw [decodeExpression]
      refine (requireDecode_reads _ _ _ hdepth').step (Reads.item (readWord8_reads _ 0 rfl) ?_)
      exact (decodeType_reads hnarrow valueType hmachine.2 htype (by omega)).bind
        (decodeResolvedName_reads hnarrow hmachine.1 hname).last
  | coreLiteral literal valueType =>
      obtain ⟨encodedType, htype, h⟩ := bind_eq_ok.mp h
      obtain ⟨encodedLiteral, hliteral, h⟩ := bind_eq_ok.mp h
      cases h
      obtain ⟨fuel, rfl, hrest⟩ := fuel_succ hfuel
      simp only [List.length_append] at hrest
      rw [CoreExpression.machine] at hmachine
      rw [decodeExpression]
      refine (requireDecode_reads _ _ _ hdepth').step (Reads.item (readWord8_reads _ 1 rfl) ?_)
      exact (decodeType_reads hnarrow valueType hmachine htype (by omega)).bind
        (decodeLiteral_reads hnarrow hliteral).last
  | coreApply callee arguments valueType =>
      obtain ⟨encodedType, htype, h⟩ := bind_eq_ok.mp h
      obtain ⟨encodedCallee, hcallee, h⟩ := bind_eq_ok.mp h
      obtain ⟨encodedArguments, harguments, h⟩ := bind_eq_ok.mp h
      cases h
      obtain ⟨fuel, rfl, hrest⟩ := fuel_succ hfuel
      simp only [List.length_append] at hrest
      simp only [CoreExpression.machine, Bool.and_eq_true] at hmachine
      obtain ⟨⟨hmcallee, hmarguments⟩, hmtype⟩ := hmachine
      rw [decodeExpression]
      refine (requireDecode_reads _ _ _ hdepth').step (Reads.item (readWord8_reads _ 2 rfl) ?_)
      refine (decodeType_reads hnarrow valueType hmtype htype (by omega)).bind ?_
      refine (decodeExpression_reads callee hmcallee hcallee (by omega)).bind (Reads.last ?_)
      refine decodeVectorMaximum_reads hnarrow.operands harguments fun body hbody hlength => ?_
      exact decodeExpressions_reads arguments hmarguments hbody (by omega)
  | corePrimitive primitive arguments valueType =>
      obtain ⟨encodedType, htype, h⟩ := bind_eq_ok.mp h
      obtain ⟨encodedArguments, harguments, h⟩ := bind_eq_ok.mp h
      cases h
      obtain ⟨fuel, rfl, hrest⟩ := fuel_succ hfuel
      obtain ⟨hcount, body, hbody, rfl⟩ := encodeVector_eq_ok harguments
      simp only [List.length_cons, List.length_append] at hrest
      simp only [CoreExpression.machine, Bool.and_eq_true] at hmachine
      have hoperands := hnarrow.operands
      rw [decodeExpression]
      refine (requireDecode_reads _ _ _ hdepth').step (Reads.item (readWord8_reads _ 3 rfl) ?_)
      rw [← bind_assoc]
      refine Reads.item (decodePrimitive_reads primitive) ?_
      refine (decodeType_reads hnarrow valueType hmachine.2 htype (by omega)).bind ?_
      refine (readWord32_reads _ (by omega)).bind ?_
      refine (requireDecode_reads _ _ _ (by simpa using hcount)).step (Reads.last ?_)
      exact decodeOperands_reads arguments hmachine.1 hbody (by omega)
  | coreClosure captures parameters returnType body valueType =>
      obtain ⟨encodedType, htype, h⟩ := bind_eq_ok.mp h
      obtain ⟨encodedCaptures, hcaptures, h⟩ := bind_eq_ok.mp h
      obtain ⟨encodedParameters, hparameters, h⟩ := bind_eq_ok.mp h
      obtain ⟨encodedReturn, hreturn, h⟩ := bind_eq_ok.mp h
      obtain ⟨encodedBody, hbody, h⟩ := bind_eq_ok.mp h
      cases h
      obtain ⟨fuel, rfl, hrest⟩ := fuel_succ hfuel
      simp only [List.length_append] at hrest
      simp only [CoreExpression.machine, Bool.and_eq_true] at hmachine
      obtain ⟨⟨⟨⟨hmcaptures, hmparameters⟩, hmreturn⟩, hmbody⟩, hmtype⟩ := hmachine
      rw [decodeExpression]
      refine (requireDecode_reads _ _ _ hdepth').step (Reads.item (readWord8_reads _ 4 rfl) ?_)
      refine (decodeType_reads hnarrow valueType hmtype htype (by omega)).bind ?_
      refine Reads.bind (a := captures) ?_ ?_
      · refine decodeVectorMaximum_reads hnarrow.operands hcaptures fun part hpart hlength => ?_
        exact decodeCoreCaptures_reads captures hmcaptures hpart (by omega)
      refine (decodeParameters_reads hnarrow hmparameters hparameters (by omega)).bind ?_
      refine (decodeType_reads hnarrow returnType hmreturn hreturn (by omega)).bind (Reads.last ?_)
      refine decodeVectorMaximum_reads hnarrow.statements hbody fun part hpart hlength => ?_
      exact decodeStatements_reads body hmbody hpart (by omega)
  | coreLet name bindingType value body valueType =>
      obtain ⟨encodedType, htype, h⟩ := bind_eq_ok.mp h
      obtain ⟨encodedName, hname, h⟩ := bind_eq_ok.mp h
      obtain ⟨encodedBindingType, hbinding, h⟩ := bind_eq_ok.mp h
      obtain ⟨encodedValue, hvalue, h⟩ := bind_eq_ok.mp h
      obtain ⟨encodedBody, hbody, h⟩ := bind_eq_ok.mp h
      cases h
      obtain ⟨fuel, rfl, hrest⟩ := fuel_succ hfuel
      simp only [List.length_append] at hrest
      simp only [CoreExpression.machine, Bool.and_eq_true] at hmachine
      obtain ⟨⟨⟨⟨hmname, hmbinding⟩, hmvalue⟩, hmbody⟩, hmtype⟩ := hmachine
      rw [decodeExpression]
      refine (requireDecode_reads _ _ _ hdepth').step (Reads.item (readWord8_reads _ 5 rfl) ?_)
      refine (decodeType_reads hnarrow valueType hmtype htype (by omega)).bind ?_
      refine (decodeResolvedName_reads hnarrow hmname hname).bind ?_
      refine (decodeType_reads hnarrow bindingType hmbinding hbinding (by omega)).bind ?_
      exact (decodeExpression_reads value hmvalue hvalue (by omega)).bind
        (decodeExpression_reads body hmbody hbody (by omega)).last
  | coreConditional condition whenTrue whenFalse valueType =>
      obtain ⟨encodedType, htype, h⟩ := bind_eq_ok.mp h
      obtain ⟨encodedCondition, hcondition, h⟩ := bind_eq_ok.mp h
      obtain ⟨encodedTrue, htrue, h⟩ := bind_eq_ok.mp h
      obtain ⟨encodedFalse, hfalse, h⟩ := bind_eq_ok.mp h
      cases h
      obtain ⟨fuel, rfl, hrest⟩ := fuel_succ hfuel
      simp only [List.length_append] at hrest
      simp only [CoreExpression.machine, Bool.and_eq_true] at hmachine
      obtain ⟨⟨⟨hmcondition, hmtrue⟩, hmfalse⟩, hmtype⟩ := hmachine
      rw [decodeExpression]
      refine (requireDecode_reads _ _ _ hdepth').step (Reads.item (readWord8_reads _ 6 rfl) ?_)
      refine (decodeType_reads hnarrow valueType hmtype htype (by omega)).bind ?_
      refine (decodeExpression_reads condition hmcondition hcondition (by omega)).bind ?_
      exact (decodeExpression_reads whenTrue hmtrue htrue (by omega)).bind
        (decodeExpression_reads whenFalse hmfalse hfalse (by omega)).last

theorem decodeExpressions_reads :
    ∀ (expressions : List CoreExpression) {fuel : Nat} {depth : Int} {bytes : Bytes},
      CoreExpression.machineAll expressions → encodeExpressions limits depth expressions = .ok bytes →
      bytes.length ≤ fuel →
      Reads (Decoder.many expressions.length (decodeExpression limits fuel depth)) bytes expressions := by
  intro expressions fuel depth bytes hmachine h hfuel
  cases expressions with
  | nil =>
      rw [encodeExpressions] at h
      cases h
      exact Reads.pure _
  | cons expression expressions =>
      rw [encodeExpressions] at h
      rw [CoreExpression.machineAll, Bool.and_eq_true] at hmachine
      exact Reads.cons h hfuel (decodeExpression_reads expression hmachine.1) (decodeExpressions_reads expressions hmachine.2)

theorem decodeOperands_reads :
    ∀ (expressions : List CoreExpression) {fuel : Nat} {depth : Int} {bytes : Bytes},
      CoreExpression.machineAll expressions → encodeOperands limits depth expressions = .ok bytes →
      bytes.length ≤ fuel →
      Reads (decodeOperands (decodeExpression limits fuel depth) (decodeExpression limits fuel (depth + 1))
        expressions.length) bytes expressions := by
  intro expressions fuel depth bytes hmachine h hfuel
  cases expressions with
  | nil =>
      rw [encodeOperands] at h
      cases h
      exact Reads.pure _
  | cons expression expressions =>
      rw [encodeOperands] at h
      rw [CoreExpression.machineAll, Bool.and_eq_true] at hmachine
      exact Reads.cons h hfuel (decodeExpression_reads expression hmachine.1) (decodeExpressions_reads expressions hmachine.2)

theorem decodeCoreCapture_reads :
    ∀ (capture : CoreCapture) {fuel : Nat} {depth : Int} {bytes : Bytes}, CoreCapture.machine capture →
      encodeCoreCapture limits depth capture = .ok bytes → bytes.length ≤ fuel →
      Reads (decodeCoreCapture limits fuel (depth + 1)) bytes capture := by
  intro capture fuel depth bytes hmachine h hfuel
  obtain ⟨mode, name, type, value⟩ := capture
  rw [encodeCoreCapture] at h
  obtain ⟨encodedName, hname, h⟩ := bind_eq_ok.mp h
  obtain ⟨encodedType, htype, h⟩ := bind_eq_ok.mp h
  obtain ⟨encodedValue, hvalue, h⟩ := bind_eq_ok.mp h
  cases h
  obtain ⟨fuel, rfl, hrest⟩ := fuel_succ hfuel
  simp only [List.length_append] at hrest
  simp only [CoreCapture.machine, Bool.and_eq_true] at hmachine
  rw [decodeCoreCapture, ← bind_assoc]
  refine Reads.item (decodeCaptureMode_reads mode) ?_
  refine (decodeResolvedName_reads hnarrow hmachine.1.1 hname).bind ?_
  exact (decodeType_reads hnarrow type hmachine.1.2 htype (by omega)).bind
    (decodeExpression_reads value hmachine.2 hvalue (by omega)).last

theorem decodeCoreCaptures_reads :
    ∀ (captures : List CoreCapture) {fuel : Nat} {depth : Int} {bytes : Bytes},
      CoreCapture.machineAll captures → encodeCoreCaptures limits depth captures = .ok bytes →
      bytes.length ≤ fuel →
      Reads (Decoder.many captures.length (decodeCoreCapture limits fuel (depth + 1))) bytes captures := by
  intro captures fuel depth bytes hmachine h hfuel
  cases captures with
  | nil =>
      rw [encodeCoreCaptures] at h
      cases h
      exact Reads.pure _
  | cons capture captures =>
      rw [encodeCoreCaptures] at h
      rw [CoreCapture.machineAll, Bool.and_eq_true] at hmachine
      exact Reads.cons h hfuel (decodeCoreCapture_reads capture hmachine.1) (decodeCoreCaptures_reads captures hmachine.2)

theorem decodeStatement_reads :
    ∀ (statement : CoreStatement) {fuel : Nat} {bytes : Bytes}, CoreStatement.machine statement →
      encodeStatement limits statement = .ok bytes → bytes.length ≤ fuel →
      Reads (decodeStatement limits fuel) bytes statement := by
  intro statement fuel bytes hmachine h hfuel
  rw [encodeStatement.eq_def] at h
  cases statement with
  | coreBind name type «mutable» value =>
      obtain ⟨encodedName, hname, h⟩ := bind_eq_ok.mp h
      obtain ⟨encodedType, htype, h⟩ := bind_eq_ok.mp h
      obtain ⟨encodedValue, hvalue, h⟩ := bind_eq_ok.mp h
      cases h
      obtain ⟨fuel, rfl, hrest⟩ := fuel_succ hfuel
      simp only [List.length_append] at hrest
      simp only [CoreStatement.machine, Bool.and_eq_true] at hmachine
      rw [decodeStatement]
      refine Reads.item (readWord8_reads _ 0 rfl) ?_
      refine (decodeResolvedName_reads hnarrow hmachine.1.1 hname).bind ?_
      refine (decodeType_reads hnarrow type hmachine.1.2 htype (by omega)).bind ?_
      exact (decodeBool_reads _ «mutable»).bind
        (decodeExpression_reads value hmachine.2 hvalue (by omega)).last
  | coreAssign name value =>
      obtain ⟨encodedName, hname, h⟩ := bind_eq_ok.mp h
      obtain ⟨encodedValue, hvalue, h⟩ := bind_eq_ok.mp h
      cases h
      obtain ⟨fuel, rfl, hrest⟩ := fuel_succ hfuel
      simp only [List.length_append] at hrest
      simp only [CoreStatement.machine, Bool.and_eq_true] at hmachine
      rw [decodeStatement]
      refine Reads.item (readWord8_reads _ 1 rfl) ?_
      exact (decodeResolvedName_reads hnarrow hmachine.1 hname).bind
        (decodeExpression_reads value hmachine.2 hvalue (by omega)).last
  | coreReturn value =>
      obtain ⟨encodedValue, hvalue, h⟩ := bind_eq_ok.mp h
      cases h
      obtain ⟨fuel, rfl, hrest⟩ := fuel_succ hfuel
      rw [CoreStatement.machine] at hmachine
      rw [decodeStatement]
      exact Reads.item (readWord8_reads _ 2 rfl)
        (decodeExpression_reads value hmachine hvalue hrest).last
  | coreIf condition whenTrue whenFalse =>
      obtain ⟨encodedCondition, hcondition, h⟩ := bind_eq_ok.mp h
      obtain ⟨encodedTrue, htrue, h⟩ := bind_eq_ok.mp h
      obtain ⟨encodedFalse, hfalse, h⟩ := bind_eq_ok.mp h
      cases h
      obtain ⟨fuel, rfl, hrest⟩ := fuel_succ hfuel
      simp only [List.length_append] at hrest
      simp only [CoreStatement.machine, Bool.and_eq_true] at hmachine
      rw [decodeStatement]
      refine Reads.item (readWord8_reads _ 3 rfl) ?_
      refine (decodeExpression_reads condition hmachine.1.1 hcondition (by omega)).bind ?_
      refine Reads.bind (a := whenTrue) ?_ (Reads.last ?_)
      · refine decodeVectorMaximum_reads hnarrow.statements htrue fun part hpart hlength => ?_
        exact decodeStatements_reads whenTrue hmachine.1.2 hpart (by omega)
      · refine decodeVectorMaximum_reads hnarrow.statements hfalse fun part hpart hlength => ?_
        exact decodeStatements_reads whenFalse hmachine.2 hpart (by omega)
  | coreEvaluate value =>
      obtain ⟨encodedValue, hvalue, h⟩ := bind_eq_ok.mp h
      cases h
      obtain ⟨fuel, rfl, hrest⟩ := fuel_succ hfuel
      rw [CoreStatement.machine] at hmachine
      rw [decodeStatement]
      exact Reads.item (readWord8_reads _ 4 rfl)
        (decodeExpression_reads value hmachine hvalue hrest).last
  | coreWhile condition body =>
      obtain ⟨encodedCondition, hcondition, h⟩ := bind_eq_ok.mp h
      obtain ⟨encodedBody, hbody, h⟩ := bind_eq_ok.mp h
      cases h
      obtain ⟨fuel, rfl, hrest⟩ := fuel_succ hfuel
      simp only [List.length_append] at hrest
      simp only [CoreStatement.machine, Bool.and_eq_true] at hmachine
      rw [decodeStatement]
      refine Reads.item (readWord8_reads _ 5 rfl) ?_
      refine (decodeExpression_reads condition hmachine.1 hcondition (by omega)).bind (Reads.last ?_)
      refine decodeVectorMaximum_reads hnarrow.statements hbody fun part hpart hlength => ?_
      exact decodeStatements_reads body hmachine.2 hpart (by omega)
  | coreDoWhile body condition =>
      obtain ⟨encodedBody, hbody, h⟩ := bind_eq_ok.mp h
      obtain ⟨encodedCondition, hcondition, h⟩ := bind_eq_ok.mp h
      cases h
      obtain ⟨fuel, rfl, hrest⟩ := fuel_succ hfuel
      simp only [List.length_append] at hrest
      simp only [CoreStatement.machine, Bool.and_eq_true] at hmachine
      rw [decodeStatement]
      refine Reads.item (readWord8_reads _ 6 rfl) ?_
      refine Reads.bind (a := body) ?_
        (decodeExpression_reads condition hmachine.2 hcondition (by omega)).last
      refine decodeVectorMaximum_reads hnarrow.statements hbody fun part hpart hlength => ?_
      exact decodeStatements_reads body hmachine.1 hpart (by omega)
  | coreFor condition body update =>
      obtain ⟨encodedCondition, hcondition, h⟩ := bind_eq_ok.mp h
      obtain ⟨encodedBody, hbody, h⟩ := bind_eq_ok.mp h
      obtain ⟨encodedUpdate, hupdate, h⟩ := bind_eq_ok.mp h
      cases h
      obtain ⟨fuel, rfl, hrest⟩ := fuel_succ hfuel
      simp only [List.length_append] at hrest
      simp only [CoreStatement.machine, Bool.and_eq_true] at hmachine
      rw [decodeStatement]
      refine Reads.item (readWord8_reads _ 7 rfl) ?_
      refine (decodeExpression_reads condition hmachine.1.1 hcondition (by omega)).bind ?_
      refine Reads.bind (a := body) ?_ (Reads.last ?_)
      · refine decodeVectorMaximum_reads hnarrow.statements hbody fun part hpart hlength => ?_
        exact decodeStatements_reads body hmachine.1.2 hpart (by omega)
      · refine decodeVectorMaximum_reads hnarrow.statements hupdate fun part hpart hlength => ?_
        exact decodeStatements_reads update hmachine.2 hpart (by omega)
  | coreBreak =>
      cases h
      obtain ⟨fuel, rfl, _⟩ := fuel_succ hfuel
      rw [decodeStatement]
      exact Reads.item (readWord8_reads _ 8 rfl) (Reads.pure _)
  | coreContinue =>
      cases h
      obtain ⟨fuel, rfl, _⟩ := fuel_succ hfuel
      rw [decodeStatement]
      exact Reads.item (readWord8_reads _ 9 rfl) (Reads.pure _)

theorem decodeStatements_reads :
    ∀ (statements : List CoreStatement) {fuel : Nat} {bytes : Bytes}, CoreStatement.machineAll statements →
      encodeStatements limits statements = .ok bytes → bytes.length ≤ fuel →
      Reads (Decoder.many statements.length (decodeStatement limits fuel)) bytes statements := by
  intro statements fuel bytes hmachine h hfuel
  cases statements with
  | nil =>
      rw [encodeStatements] at h
      cases h
      exact Reads.pure _
  | cons statement statements =>
      rw [encodeStatements] at h
      rw [CoreStatement.machineAll, Bool.and_eq_true] at hmachine
      exact Reads.cons h hfuel (decodeStatement_reads statement hmachine.1) (decodeStatements_reads statements hmachine.2)

end

end Narrow

/-! ## Modules -/

theorem decodeFunction_reads (hnarrow : limits.Narrow) {owners : SortedMap Int String} {function : CoreFunction}
    (hmachine : CoreFunction.machine function) (h : encodeFunction limits owners function = .ok bytes)
    (hfuel : bytes.length ≤ fuel) :
    Reads (decodeFunction limits fuel) bytes (function, sourceOf owners function) := by
  obtain ⟨name, hname, h⟩ := bind_eq_ok.mp h
  obtain ⟨source, hsource, h⟩ := bind_eq_ok.mp h
  obtain ⟨parameters, hparameters, h⟩ := bind_eq_ok.mp h
  obtain ⟨result, hresult, h⟩ := bind_eq_ok.mp h
  obtain ⟨body, hbody, h⟩ := bind_eq_ok.mp h
  cases h
  simp only [List.length_append] at hfuel
  simp only [CoreFunction.machine, Bool.and_eq_true] at hmachine
  obtain ⟨⟨⟨hmname, hmparameters⟩, hmresult⟩, hmbody⟩ := hmachine
  refine (decodeResolvedName_reads hnarrow hmname hname).bind ?_
  refine (decodeText_reads hnarrow hsource).bind ?_
  refine (decodeParameters_reads hnarrow hmparameters hparameters (by omega)).bind ?_
  refine (decodeType_reads hnarrow function.coreFunctionReturnType hmresult hresult (by omega)).bind
    (Reads.last ?_)
  refine decodeVectorMaximum_reads hnarrow.statements hbody fun part hpart hlength => ?_
  exact decodeStatements_reads hnarrow function.coreFunctionBody hmbody hpart (by omega)

/-- The module with its owners as the wire has them: in the order of the functions. -/
def CoreModule.inFunctionOrder (moduleValue : CoreModule) : CoreModule :=
  let owners := SortedMap.ofList moduleValue.coreModuleFunctionSources
  { moduleValue with
    coreModuleFunctionSources :=
      ownersOf (moduleValue.coreModuleFunctions.map fun function => (function, sourceOf owners function)) }

theorem decodeDocument_reads {limits : CoreWireLimits} (hnarrow : limits.Narrow)
    {moduleValue : CoreModule} {fuel : Nat} {payload : Bytes} (hmachine : CoreModule.machine moduleValue)
    (h : encodeModule limits moduleValue = .ok payload) (hfuel : payload.length ≤ fuel) :
    Reads (decodeDocument limits fuel)
      (magic ++ (word16 currentCoreWireVersion ++ (word16 0 ++ payload)))
      (CoreModule.inFunctionOrder moduleValue) := by
  obtain ⟨name, hname, h⟩ := bind_eq_ok.mp h
  obtain ⟨sources, hsources, h⟩ := bind_eq_ok.mp h
  obtain ⟨functions, hfunctions, h⟩ := bind_eq_ok.mp h
  cases h
  simp only [List.length_append] at hfuel
  refine (takeBytes_reads "magic" (rfl : magic.length = 4)).bind ?_
  refine (requireDecode_reads _ _ _ (decide_eq_true rfl)).step ?_
  refine (readWord16_reads _ (by decide)).bind ?_
  refine (requireDecode_reads _ _ _ (decide_eq_true rfl)).step ?_
  refine (readWord16_reads _ (by decide)).bind ?_
  refine (requireDecode_reads _ _ _ (decide_eq_true rfl)).step ?_
  refine (decodeQualifiedName_reads hnarrow hname).bind ?_
  refine Reads.bind (a := moduleValue.coreModuleSourceFiles) ?_ ?_
  · refine decodeVectorMaximum_reads hnarrow.functions hsources fun part hpart _ => ?_
    exact Reads.many hpart fun _ _ _ hencoded _ => decodeText_reads hnarrow hencoded
  have hread := @decodeVectorMaximum_reads _ _ "function count" _ _ _ _ (decodeFunction limits fuel) _
    hnarrow.functions hfunctions fun body hbody hlength =>
      Reads.many_map hbody fun function hfunction part hpart hle =>
        decodeFunction_reads hnarrow (List.all_eq_true.mp hmachine function hfunction) hpart
          (by omega : part.length ≤ fuel)
  have hlast := @Reads.last _ _ _ _ _ (fun rows =>
    (⟨moduleValue.coreModuleName, rows.map Prod.fst, moduleValue.coreModuleSourceFiles, ownersOf rows⟩ :
      CoreModule)) _ _ hread
  rw [List.map_map] at hlast
  have hid : (Prod.fst ∘ fun function => (function,
      sourceOf (SortedMap.ofList moduleValue.coreModuleFunctionSources) function)) = id := rfl
  rw [hid, List.map_id] at hlast
  exact hlast

/-- The decoder gives the module with its owners in the order of its functions. -/
theorem decodeCore_reads {limits : CoreWireLimits} (hnarrow : limits.Narrow) {moduleValue : CoreModule}
    {bytes : Bytes} (hmachine : CoreModule.machine moduleValue)
    (h : encodeCore limits moduleValue = .ok bytes) :
    decodeCore limits bytes = .ok (CoreModule.inFunctionOrder moduleValue) := by
  obtain ⟨payload, hpayload, h⟩ := bind_eq_ok.mp h
  obtain ⟨_, hrequire, h⟩ := bind_eq_ok.mp h
  have hlength := requireEncode_eq_ok hrequire
  cases h
  unfold decodeCore
  rw [if_neg (by omega)]
  have hfuel : payload.length
      ≤ (magic ++ (word16 currentCoreWireVersion ++ (word16 0 ++ payload))).length := by
    simp only [List.length_append]
    omega
  have hread := decodeDocument_reads hnarrow hmachine hpayload hfuel
  rw [hread.run]
  rfl

/-- Owners of the functions of a module, by membership. -/
theorem mem_inFunctionOrder (h : verifyCore moduleValue = .ok accepted) (owner : Int × String) :
    owner ∈ (CoreModule.inFunctionOrder moduleValue).coreModuleFunctionSources ↔
      owner ∈ moduleValue.coreModuleFunctionSources
        ∧ ∃ function ∈ moduleValue.coreModuleFunctions, function.symbol = owner.1 := by
  obtain ⟨hnodup, hnonempty⟩ := owners_of_verifyCore h
  have hfind : ∀ symbol source, (SortedMap.ofList moduleValue.coreModuleFunctionSources).find symbol
      = some source ↔ (symbol, source) ∈ moduleValue.coreModuleFunctionSources :=
    fun symbol source => SortedMap.find_ofList_eq_some_iff hnodup
  simp only [CoreModule.inFunctionOrder, ownersOf, List.mem_map, List.mem_filter]
  constructor
  · rintro ⟨_, ⟨⟨function, hfunction, rfl⟩, hsource⟩, rfl⟩
    refine ⟨(hfind _ _).mp ?_, function, hfunction, rfl⟩
    unfold sourceOf at hsource ⊢
    cases hlookup : (SortedMap.ofList moduleValue.coreModuleFunctionSources).find function.symbol with
    | none => simp [hlookup] at hsource
    | some source => rfl
  · rintro ⟨howner, function, hfunction, hsymbol⟩
    have hlookup := (hfind owner.1 owner.2).mpr howner
    have hsource : sourceOf (SortedMap.ofList moduleValue.coreModuleFunctionSources) function = owner.2 := by
      rw [sourceOf, hsymbol, hlookup]
      rfl
    refine ⟨(function, owner.2), ⟨⟨function, hfunction, by rw [hsource]⟩, ?_⟩, ?_⟩
    · simpa using hnonempty owner howner
    · rw [hsymbol]

/-- Entries with the same members whose keys follow one order are the same. -/
theorem eq_of_keys_sublist {order : List Int} (horder : order.Nodup) {left right : List (Int × String)}
    (hleft : (left.map Prod.fst).Sublist order) (hright : (right.map Prod.fst).Sublist order)
    (hmem : ∀ entry, entry ∈ left ↔ entry ∈ right) : left = right := by
  have hnodup : ∀ {entries : List (Int × String)}, (entries.map Prod.fst).Sublist order → entries.Nodup :=
    fun h => (horder.sublist h).of_map
  have hsorted : ∀ {entries : List (Int × String)}, (entries.map Prod.fst).Sublist order →
      entries.Pairwise fun a b => order.idxOf a.1 < order.idxOf b.1 := by
    intro entries h
    have hpairwise : order.Pairwise fun a b => order.idxOf a < order.idxOf b := by
      rw [List.pairwise_iff_getElem]
      intro i j hi hj hlt
      rw [horder.idxOf_getElem i hi, horder.idxOf_getElem j hj]
      exact hlt
    have hkeys : (entries.map Prod.fst).Pairwise fun a b => order.idxOf a < order.idxOf b :=
      hpairwise.sublist h
    rw [List.pairwise_map] at hkeys
    exact hkeys
  refine List.Perm.eq_of_pairwise (fun a b _ _ h h' => absurd (lt_trans h h') (lt_irrefl _))
    (hsorted hleft) (hsorted hright) ?_
  exact (List.perm_ext_iff_of_nodup (hnodup hleft) (hnodup hright)).mpr hmem

theorem inFunctionOrder_eq_self (h : verifyCore moduleValue = .ok accepted)
    (horder : (moduleValue.coreModuleFunctionSources.map Prod.fst).Sublist
      (moduleValue.coreModuleFunctions.map CoreFunction.symbol)) :
    CoreModule.inFunctionOrder moduleValue = moduleValue := by
  have howners : (CoreModule.inFunctionOrder moduleValue).coreModuleFunctionSources
      = moduleValue.coreModuleFunctionSources := by
    refine eq_of_keys_sublist (functions_of_verifyCore h).1 ?_ horder fun owner => ?_
    · simp only [CoreModule.inFunctionOrder, ownersOf, List.map_map]
      have hfilter := (List.filter_sublist (p := fun row : CoreFunction × String => !row.2.isEmpty)
        (l := moduleValue.coreModuleFunctions.map fun function => (function,
          sourceOf (SortedMap.ofList moduleValue.coreModuleFunctionSources) function))).map
        fun row => row.1.symbol
      rw [List.map_map] at hfilter
      exact hfilter
    · rw [mem_inFunctionOrder h]
      refine and_iff_left_of_imp fun howner => ?_
      have hkey := horder.subset (List.mem_map_of_mem (f := Prod.fst) howner)
      obtain ⟨function, hfunction, hsymbol⟩ := List.mem_map.mp hkey
      exact ⟨function, hfunction, hsymbol⟩
  show { moduleValue with coreModuleFunctionSources :=
    (CoreModule.inFunctionOrder moduleValue).coreModuleFunctionSources } = moduleValue
  rw [howners]

/-- **The wire round trip.** The decoder accepts what the encoder writes for a verified module, and gives
the module with the owners of its functions in the order of the functions: the module itself where its
owners follow that order. -/
theorem decodeCore_encodeCore {limits : CoreWireLimits} (hnarrow : limits.Narrow)
    {moduleValue accepted : CoreModule} {bytes : Bytes} (hmachine : CoreModule.machine moduleValue)
    (hverified : verifyCore moduleValue = .ok accepted) (h : encodeCore limits moduleValue = .ok bytes) :
    decodeCore limits bytes = .ok (CoreModule.inFunctionOrder moduleValue)
      ∧ (∀ owner, owner ∈ (CoreModule.inFunctionOrder moduleValue).coreModuleFunctionSources ↔
          owner ∈ moduleValue.coreModuleFunctionSources
            ∧ ∃ function ∈ moduleValue.coreModuleFunctions, function.symbol = owner.1)
      ∧ ((moduleValue.coreModuleFunctionSources.map Prod.fst).Sublist
          (moduleValue.coreModuleFunctions.map CoreFunction.symbol) →
        CoreModule.inFunctionOrder moduleValue = moduleValue) :=
  ⟨decodeCore_reads hnarrow hmachine h, mem_inFunctionOrder hverified, inFunctionOrder_eq_self hverified⟩

theorem defaultCoreWireLimits_narrow : defaultCoreWireLimits.Narrow := by
  constructor <;> decide

/-- Two functions of one source file, with the owner of the second listed first. -/
def reversedOwners : CoreModule where
  coreModuleName := ["m"]
  coreModuleFunctions := [⟨⟨1, "f"⟩, [], unitType, []⟩, ⟨⟨2, "g"⟩, [], unitType, []⟩]
  coreModuleSourceFiles := ["a"]
  coreModuleFunctionSources := [(2, "a"), (1, "a")]

theorem decodeCore_encodeCore_reversedOwners :
    ∃ bytes, encodeCore defaultCoreWireLimits reversedOwners = .ok bytes
      ∧ decodeCore defaultCoreWireLimits bytes = .ok (CoreModule.inFunctionOrder reversedOwners) :=
  ⟨_, rfl, (@decodeCore_encodeCore _ defaultCoreWireLimits_narrow reversedOwners reversedOwners _
    (by decide) (by rfl) rfl).1⟩

theorem decodeCore_encodeCore_ne :
    verifyCore reversedOwners = .ok reversedOwners
      ∧ ∃ bytes, encodeCore defaultCoreWireLimits reversedOwners = .ok bytes
        ∧ decodeCore defaultCoreWireLimits bytes ≠ .ok reversedOwners := by
  refine ⟨by rfl, _, rfl, ?_⟩
  rw [@decodeCore_reads _ defaultCoreWireLimits_narrow reversedOwners _ (by decide) rfl]
  decide

end Tala.Core.Wire
