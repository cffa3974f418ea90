import Tala.Core.WireRoundTrip
import Tala.CorePrep.Wire

/-!
# `CorePrep.WireRecords` — words, texts, numbers and names of CorePrep documents

Each reader with both of its directions: it takes what the writer wrote, and whatever it takes is what the
writer writes for the value it gives. No record of this layer has two forms.
-/

namespace Tala.CorePrep.Wire

open Tala Tala.Core Tala.Library Tala.Library.Codec
open Tala.Core.Wire (Bytes word16 word32 word64 encodeBool integerMagnitude canonicalMagnitude captureModeTag
  word16_eq word32_eq word64_eq)

variable {limits : WireLimits} {context context' : String}

/-! ## Words -/

variable {bytes : Bytes}

theorem takeBytes_reads (context : String) {count : Nat} (h : bytes.length = count) :
    Reads (takeBytes context count) bytes bytes := by
  intro rest offset
  unfold takeBytes
  dsimp only
  rw [List.take_left' h, if_pos h, List.drop_left' h, h]

theorem takeBytes_yields (context : String) (count : Nat) :
    Yields (takeBytes context count) fun bytes items => bytes = items ∧ bytes.length = count := by
  intro input bytes next hrun
  unfold takeBytes at hrun
  dsimp only at hrun
  split at hrun
  · next hlength =>
    cases hrun
    exact ⟨_, ⟨rfl, hlength⟩, (List.take_append_drop count input.rest).symm⟩
  · cases hrun

/-- A tag. -/
theorem readWord8_reads (context : String) {tag : UInt8} (value : Nat) (h : tag.toNat = value) :
    Reads (readWord8 context) [tag] value := by
  subst h
  unfold readWord8
  exact (takeBytes_reads context (rfl : [tag].length = 1)).item (Reads.pure tag.toNat)

theorem readWord8_yields (context : String) :
    Yields (readWord8 context) fun value items => value < 256 ∧ items = [UInt8.ofNat value] := by
  apply (takeBytes_yields context 1).bind
  rintro bytes _ ⟨rfl, hlength⟩
  obtain ⟨octet, rfl⟩ := List.length_eq_one_iff.mp hlength
  apply Yields.pure
  rw [UInt8.ofNat_toNat]
  exact ⟨octet.toNat_lt, rfl⟩

variable {value : Nat} {magnitude : Bytes} {name : ResolvedName}

theorem readWord_reads (context : String) {width : Nat} (h : value < 256 ^ width) :
    Reads (readWord context width) (littleEndian width value) value := by
  have hread : Reads (readWord context width) (littleEndian width value)
      (ofLittleEndian (littleEndian width value)) :=
    (takeBytes_reads _ (length_littleEndian width value)).last
  rwa [ofLittleEndian_littleEndian, Nat.mod_eq_of_lt h] at hread

theorem readWord_yields (context : String) (width : Nat) :
    Yields (readWord context width) fun value items =>
      value < 256 ^ width ∧ items = littleEndian width value := by
  apply (takeBytes_yields context width).last
  rintro bytes _ ⟨rfl, rfl⟩
  exact ⟨ofLittleEndian_lt bytes, (littleEndian_ofLittleEndian bytes).symm⟩

theorem readWord16_reads (context : String) (h : value < 2 ^ 16) :
    Reads (readWord16 context) (word16 value) value := by
  rw [word16_eq]
  exact readWord_reads context (by omega)

theorem readWord16_yields (context : String) :
    Yields (readWord16 context) fun value items => items = word16 value := by
  apply (readWord_yields context 2).weaken
  rintro value _ ⟨-, rfl⟩
  exact (word16_eq value).symm

theorem readWord32_reads (context : String) {value : Nat} (h : value < 2 ^ 32) :
    Reads (readWord32 context) (word32 value) value := by
  rw [word32_eq]
  exact readWord_reads context (by omega)

theorem readWord32_yields (context : String) :
    Yields (readWord32 context) fun value items => value < 2 ^ 32 ∧ items = word32 value := by
  apply (readWord_yields context 4).weaken
  rintro value _ ⟨hvalue, rfl⟩
  exact ⟨by omega, (word32_eq value).symm⟩

theorem readWord64_reads (context : String) (h : value < 2 ^ 64) :
    Reads (readWord64 context) (word64 value) value := by
  rw [word64_eq]
  exact readWord_reads context (by omega)

theorem readWord64_yields (context : String) :
    Yields (readWord64 context) fun value items => value < 2 ^ 64 ∧ items = word64 value := by
  apply (readWord_yields context 8).weaken
  rintro value _ ⟨hvalue, rfl⟩
  exact ⟨by omega, (word64_eq value).symm⟩

theorem encodeNonNegative32_eq_ok :
    encodeNonNegative32 context value = .ok bytes ↔ value < 2 ^ 32 ∧ bytes = word32 value := by
  unfold encodeNonNegative32
  split
  · next h =>
    constructor
    · intro hfailure
      cases hfailure
    · rintro ⟨hvalue, -⟩
      omega
  · next h =>
    constructor
    · intro hok
      cases hok
      exact ⟨by omega, rfl⟩
    · rintro ⟨-, rfl⟩
      rfl

theorem requireLimit_eq_ok {maximumValue : Int} {actual : Nat} :
    requireLimit context maximumValue actual = .ok () ↔ (actual : Int) ≤ maximumValue := by
  unfold requireLimit
  split
  · next h =>
    constructor
    · intro hfailure
      cases hfailure
    · intro hle
      omega
  · next h => exact ⟨fun _ => by omega, fun _ => rfl⟩

theorem decodeBlockId_reads (h : encodeNonNegative32 context value = .ok bytes) :
    Reads (decodeBlockId context') bytes value := by
  obtain ⟨hvalue, rfl⟩ := encodeNonNegative32_eq_ok.mp h
  exact readWord32_reads context' hvalue

theorem decodeBlockId_yields : Yields (decodeBlockId context') fun value items =>
    encodeNonNegative32 context value = .ok items := by
  apply (readWord32_yields context').weaken
  intro value items h
  exact encodeNonNegative32_eq_ok.mpr h

theorem decodeBool_reads (context : String) (value : Bool) :
    Reads (decodeBool context) (encodeBool value) value := by
  cases value with
  | false => exact Reads.item (readWord8_reads context 0 rfl) (Reads.pure false)
  | true => exact Reads.item (readWord8_reads context 1 rfl) (Reads.pure true)

theorem decodeBool_yields (context : String) :
    Yields (decodeBool context) fun value items => items = encodeBool value := by
  apply (readWord8_yields context).bind
  rintro value _ ⟨-, rfl⟩
  match value with
  | 0 => exact Yields.pure rfl
  | 1 => exact Yields.pure rfl
  | _ + 2 => exact Yields.fail _ _

/-! ## Vectors and texts -/

/-- What was written for a vector. -/
theorem encodeVector_eq_ok {maximumCount : Int} {count : Nat} {elements : Encoder} :
    encodeVector context maximumCount count elements = .ok bytes ↔
      (count : Int) ≤ maximumCount ∧ count < 2 ^ 32 ∧
        ∃ body, elements = .ok body ∧ bytes = word32 count ++ body := by
  constructor
  · intro h
    obtain ⟨_, hrequire, h⟩ := bind_eq_ok.mp h
    obtain ⟨_, hcount, h⟩ := bind_eq_ok.mp h
    obtain ⟨body, hbody, h⟩ := bind_eq_ok.mp h
    cases h
    obtain ⟨hnarrow, rfl⟩ := encodeNonNegative32_eq_ok.mp hcount
    exact ⟨requireLimit_eq_ok.mp hrequire, hnarrow, body, hbody, rfl⟩
  · rintro ⟨hle, hnarrow, body, hbody, rfl⟩
    apply bind_eq_ok.mpr
    refine ⟨(), requireLimit_eq_ok.mpr hle, ?_⟩
    apply bind_eq_ok.mpr
    refine ⟨_, encodeNonNegative32_eq_ok.mpr ⟨hnarrow, rfl⟩, ?_⟩
    apply bind_eq_ok.mpr
    exact ⟨body, hbody, rfl⟩

theorem decodeVectorWithMaximum_reads {α : Type} {maximumCount : Int} {values : List α}
    {encode : α → Encoder} {parser : WireDecoder α} {bytes : Bytes}
    (h : encodeVector context maximumCount values.length (encodeAll encode values) = .ok bytes)
    (hread : ∀ value ∈ values, ∀ part, encode value = .ok part → Reads parser part value) :
    Reads (decodeVectorWithMaximum context' maximumCount parser) bytes values := by
  obtain ⟨hle, hnarrow, body, hbody, rfl⟩ := encodeVector_eq_ok.mp h
  apply (readWord32_reads context' hnarrow).bind
  apply (Reads.require _ (decide_eq_true hle)).step
  exact Reads.many hbody fun value hvalue part hpart _ => hread value hvalue part hpart

theorem decodeVectorWithMaximum_yields {α : Type} {maximumCount : Int} {fits : α → Prop} {canonical : Prop}
    {encode : α → Encoder} {parser : WireDecoder α}
    (h : Yields parser fun value items => fits value ∧ (canonical → encode value = .ok items)) :
    Yields (decodeVectorWithMaximum context' maximumCount parser) fun values items =>
      (∀ value ∈ values, fits value) ∧
        (canonical → encodeVector context maximumCount values.length (encodeAll encode values) = .ok items) := by
  apply (readWord32_yields context').bind
  rintro count _ ⟨hnarrow, rfl⟩
  apply Yields.require
  intro hle
  apply (Yields.encodeAll h count).weaken
  rintro values items ⟨rfl, hfits, hencode⟩
  refine ⟨hfits, ?_⟩
  intro hcanonical
  exact encodeVector_eq_ok.mpr ⟨of_decide_eq_true hle, hnarrow, items, hencode hcanonical, rfl⟩

/-- The same for elements that have one form only. -/
theorem decodeVectorWithMaximum_yields_encoded {α : Type} {maximumCount : Int} {encode : α → Encoder}
    {parser : WireDecoder α} (h : Yields parser fun value items => encode value = .ok items) :
    Yields (decodeVectorWithMaximum context' maximumCount parser) fun values items =>
      encodeVector context maximumCount values.length (encodeAll encode values) = .ok items := by
  have hparser : Yields parser fun value items => True ∧ (True → encode value = .ok items) :=
    h.weaken fun _ _ hencode => ⟨trivial, fun _ => hencode⟩
  apply (decodeVectorWithMaximum_yields hparser).weaken
  rintro values items ⟨-, hencode⟩
  exact hencode trivial

theorem decodeCodePoint_reads {character : Char} (h : encodeCodePoint context character = .ok bytes) :
    Reads (decodeCodePoint context') bytes character := by
  unfold encodeCodePoint at h
  dsimp only at h
  split at h
  · cases h
  · next hsurrogate =>
    split at h
    · cases h
    · next hrange =>
      cases h
      have hread : Reads (decodeCodePoint context') (word32 character.toNat ++ [])
          (Char.ofNat character.toNat) := by
        apply (readWord32_reads context' (by omega)).bind
        refine (Reads.require _ ?_).step (Reads.pure _)
        simp_all
        omega
      rwa [List.append_nil, Char.ofNat_toNat] at hread

/-- A code point outside the surrogates is that of its character. -/
theorem toNat_ofNat (hrange : value ≤ 0x10ffff) (hsurrogate : ¬(0xd800 ≤ value ∧ value ≤ 0xdfff)) :
    (Char.ofNat value).toNat = value := by
  have hvalid : value.isValidChar := by
    unfold Nat.isValidChar
    omega
  unfold Char.ofNat
  rw [dif_pos hvalid]
  rfl

theorem decodeCodePoint_yields : Yields (decodeCodePoint context') fun character items =>
    encodeCodePoint context character = .ok items := by
  apply (readWord32_yields context').bind
  rintro value _ ⟨-, rfl⟩
  apply Yields.require
  intro hscalar
  apply Yields.pure
  simp only [Bool.and_eq_true, Bool.not_eq_true', decide_eq_true_eq, Bool.and_eq_false_iff,
    decide_eq_false_iff_not] at hscalar
  obtain ⟨hrange, hsurrogate⟩ := hscalar
  have hvalue := toNat_ofNat hrange (by omega)
  unfold encodeCodePoint
  dsimp only
  rw [hvalue, if_neg (by simp; omega), if_neg (by omega), List.append_nil]

theorem decodeText_reads {value : String} (h : encodeText limits context value = .ok bytes) :
    Reads (decodeText limits context') bytes value := by
  obtain ⟨hle, hnarrow, body, hbody, rfl⟩ := encodeVector_eq_ok.mp h
  apply (readWord32_reads _ hnarrow).bind
  apply (Reads.require _ (decide_eq_true hle)).step
  have hcharacters : Reads (Decoder.many value.toList.length (decodeCodePoint context')) body value.toList :=
    Reads.many hbody fun character _ part hpart _ => decodeCodePoint_reads hpart
  have hlast := @Reads.last _ _ _ _ _ String.ofList _ _ hcharacters
  rwa [String.ofList_toList] at hlast

theorem decodeText_yields : Yields (decodeText limits context') fun value items =>
    encodeText limits context value = .ok items := by
  have hcharacter : Yields (decodeCodePoint context') fun character items =>
      True ∧ (True → encodeCodePoint context character = .ok items) :=
    decodeCodePoint_yields.weaken fun _ _ h => ⟨trivial, fun _ => h⟩
  apply (readWord32_yields _).bind
  rintro count _ ⟨hnarrow, rfl⟩
  apply Yields.require
  intro hle
  apply (Yields.encodeAll hcharacter count).last
  rintro characters items ⟨rfl, -, hencode⟩
  apply encodeVector_eq_ok.mpr
  rw [String.toList_ofList]
  exact ⟨of_decide_eq_true hle, hnarrow, items, hencode trivial, rfl⟩

/-! ## Numbers -/

theorem canonicalMagnitude_reverse (h : canonicalMagnitude magnitude = true) :
    ∀ octet, magnitude.reverse.getLast? = some octet → octet ≠ 0 := by
  intro octet hlast
  rw [List.getLast?_reverse] at hlast
  cases magnitude with
  | nil => cases hlast
  | cons first rest =>
      cases hlast
      exact of_decide_eq_true h

/-- The number that a magnitude denotes. -/
def magnitudeValue (magnitude : Bytes) : Nat := ofLittleEndian magnitude.reverse

theorem magnitudeValue_eq (magnitude : Bytes) :
    (magnitude.foldl (fun result octet => result * 256 + (octet.toNat : Int)) 0 : Int)
      = magnitudeValue magnitude := by
  have hreverse := foldl_octets magnitude.reverse
  rw [List.reverse_reverse] at hreverse
  rw [magnitudeValue, ← hreverse]
  exact Core.Wire.foldl_cast magnitude 0

/-- A canonical magnitude is the magnitude of its number. -/
theorem integerMagnitude_magnitudeValue (h : canonicalMagnitude magnitude = true) :
    integerMagnitude (magnitudeValue magnitude) = magnitude := by
  unfold integerMagnitude magnitudeValue
  rw [octets_ofLittleEndian (canonicalMagnitude_reverse h), List.reverse_reverse]

theorem magnitudeValue_integerMagnitude (value : Nat) : magnitudeValue (integerMagnitude value) = value := by
  unfold integerMagnitude magnitudeValue
  rw [List.reverse_reverse, ofLittleEndian_octets]

theorem encodeInteger_eq_ok {value : Int} :
    encodeInteger limits value = .ok bytes ↔
      ((integerMagnitude value.natAbs).length : Int) ≤ limits.maximumNumericBytes ∧
        (integerMagnitude value.natAbs).length < 2 ^ 32 ∧
        bytes = encodeBool (value < 0)
          ++ (word32 (integerMagnitude value.natAbs).length ++ integerMagnitude value.natAbs) := by
  constructor
  · intro h
    obtain ⟨_, hrequire, h⟩ := bind_eq_ok.mp h
    obtain ⟨_, hcount, h⟩ := bind_eq_ok.mp h
    cases h
    obtain ⟨hnarrow, rfl⟩ := encodeNonNegative32_eq_ok.mp hcount
    exact ⟨requireLimit_eq_ok.mp hrequire, hnarrow, rfl⟩
  · rintro ⟨hle, hnarrow, rfl⟩
    apply bind_eq_ok.mpr
    refine ⟨(), requireLimit_eq_ok.mpr hle, ?_⟩
    apply bind_eq_ok.mpr
    exact ⟨_, encodeNonNegative32_eq_ok.mpr ⟨hnarrow, rfl⟩, rfl⟩

theorem decodeInteger_reads {value : Int} (h : encodeInteger limits value = .ok bytes) :
    Reads (decodeInteger limits) bytes value := by
  obtain ⟨hle, hnarrow, rfl⟩ := encodeInteger_eq_ok.mp h
  apply (decodeBool_reads "integer sign" (value < 0)).bind
  apply (readWord32_reads _ hnarrow).bind
  apply (Reads.require _ (decide_eq_true hle)).step
  rw [← List.append_nil (integerMagnitude value.natAbs)]
  refine (takeBytes_reads _ (by rw [List.append_nil])).bind ?_
  apply (Reads.require _ (Core.Wire.canonicalMagnitude_integerMagnitude _)).step
  refine (Reads.require _ ?_).step ?_
  · rw [Core.Wire.integerMagnitude_isEmpty]
    simp
    omega
  · rw [magnitudeValue_eq, magnitudeValue_integerMagnitude]
    show Reads (pure (if decide (value < 0) = true then -(value.natAbs : Int) else value.natAbs)) [] value
    rw [Core.Wire.sign_natAbs]
    exact Reads.pure value

theorem decodeInteger_yields : Yields (decodeInteger limits) fun value items =>
    encodeInteger limits value = .ok items := by
  apply (decodeBool_yields _).bind
  rintro negative _ rfl
  apply (readWord32_yields _).bind
  rintro count _ ⟨hnarrow, rfl⟩
  apply Yields.require
  intro hle
  apply (takeBytes_yields _ _).bind
  rintro magnitude _ ⟨rfl, rfl⟩
  apply Yields.require
  intro hcanonical
  apply Yields.require
  intro hsign
  apply Yields.pure
  rw [magnitudeValue_eq]
  have hmagnitude := integerMagnitude_magnitudeValue hcanonical
  -- a magnitude with octets is not zero
  have hpositive : negative = true → magnitudeValue magnitude ≠ 0 := by
    intro hnegative hzero
    rw [hzero] at hmagnitude
    have hempty : magnitude = [] := by
      rw [← hmagnitude]
      simp [integerMagnitude, octets]
    rw [hnegative, hempty] at hsign
    cases hsign
  cases negative with
  | false =>
      apply encodeInteger_eq_ok.mpr
      rw [if_neg Bool.false_ne_true, Int.natAbs_natCast, hmagnitude]
      refine ⟨of_decide_eq_true hle, hnarrow, ?_⟩
      rw [show decide ((magnitudeValue magnitude : Int) < 0) = false by simp, List.append_nil]
  | true =>
      have hnonzero := hpositive rfl
      apply encodeInteger_eq_ok.mpr
      rw [if_pos rfl, Int.natAbs_neg, Int.natAbs_natCast, hmagnitude]
      refine ⟨of_decide_eq_true hle, hnarrow, ?_⟩
      rw [show decide (-(magnitudeValue magnitude : Int) < 0) = true by simp; omega, List.append_nil]

/-- ASCII characters are their octets. -/
theorem encodeAsciiCharacters_eq_ok {characters : List Char} :
    encodeAll (encodeAsciiCharacter context) characters = .ok bytes ↔
      (bytes.all fun octet => octet.toNat ≤ 0x7f) = true
        ∧ characters = bytes.map fun octet => Char.ofNat octet.toNat := by
  induction characters generalizing bytes with
  | nil =>
      constructor
      · intro h
        cases h
        exact ⟨rfl, rfl⟩
      · rintro ⟨-, h⟩
        rw [List.map_eq_nil_iff.mp h.symm]
        rfl
  | cons character characters ih =>
      constructor
      · intro h
        obtain ⟨first, hfirst, h⟩ := bind_eq_ok.mp h
        obtain ⟨others, hothers, h⟩ := bind_eq_ok.mp h
        cases h
        obtain ⟨hall, rfl⟩ := ih.mp hothers
        unfold encodeAsciiCharacter at hfirst
        split at hfirst
        · next hascii =>
          cases hfirst
          have hoctet : (UInt8.ofNat character.toNat).toNat = character.toNat := by
            rw [toNat_octet, Nat.mod_eq_of_lt (by omega)]
          refine ⟨?_, ?_⟩
          · rw [List.all_append, hall]
            simp only [List.all_cons, List.all_nil, hoctet, hascii, decide_true, Bool.and_self]
          · rw [List.map_append, List.map_singleton, hoctet, Char.ofNat_toNat]
            rfl
        · cases hfirst
      · rintro ⟨hall, hmap⟩
        cases bytes with
        | nil => cases hmap
        | cons octet bytes =>
            rw [List.map_cons, List.cons.injEq] at hmap
            obtain ⟨rfl, hmap⟩ := hmap
            rw [List.all_cons, Bool.and_eq_true, decide_eq_true_eq] at hall
            have hvalue : (Char.ofNat octet.toNat).toNat = octet.toNat := toNat_ofNat (by omega) (by omega)
            have hfirst : encodeAsciiCharacter context (Char.ofNat octet.toNat) = .ok [octet] := by
              unfold encodeAsciiCharacter
              rw [hvalue, if_pos hall.1, UInt8.ofNat_toNat]
            apply bind_eq_ok.mpr
            refine ⟨[octet], hfirst, ?_⟩
            apply bind_eq_ok.mpr
            exact ⟨bytes, ih.mpr ⟨hall.2, hmap⟩, rfl⟩

theorem encodeAscii_eq_ok {value : String} :
    encodeAscii limits context value = .ok bytes ↔
      ∃ characters : Bytes, (characters.all fun octet => octet.toNat ≤ 0x7f) = true ∧
        value = String.ofList (characters.map fun octet => Char.ofNat octet.toNat) ∧
        (characters.length : Int) ≤ limits.maximumNumericBytes ∧ characters.length < 2 ^ 32 ∧
        bytes = word32 characters.length ++ characters := by
  constructor
  · intro h
    obtain ⟨_, hrequire, h⟩ := bind_eq_ok.mp h
    obtain ⟨_, hcount, h⟩ := bind_eq_ok.mp h
    obtain ⟨characters, hcharacters, h⟩ := bind_eq_ok.mp h
    cases h
    obtain ⟨hnarrow, rfl⟩ := encodeNonNegative32_eq_ok.mp hcount
    obtain ⟨hall, hmap⟩ := encodeAsciiCharacters_eq_ok.mp hcharacters
    have hlength : value.toList.length = characters.length := by
      rw [hmap, List.length_map]
    refine ⟨characters, hall, ?_, ?_, ?_, ?_⟩
    · rw [← hmap, String.ofList_toList]
    · rw [← hlength]
      exact requireLimit_eq_ok.mp hrequire
    · rw [← hlength]
      exact hnarrow
    · rw [hlength]
  · rintro ⟨characters, hall, rfl, hle, hnarrow, rfl⟩
    unfold encodeAscii
    rw [String.toList_ofList, List.length_map]
    apply bind_eq_ok.mpr
    refine ⟨(), requireLimit_eq_ok.mpr hle, ?_⟩
    apply bind_eq_ok.mpr
    refine ⟨_, encodeNonNegative32_eq_ok.mpr ⟨hnarrow, rfl⟩, ?_⟩
    apply bind_eq_ok.mpr
    exact ⟨characters, encodeAsciiCharacters_eq_ok.mpr ⟨hall, rfl⟩, rfl⟩

theorem decodeAscii_reads {value : String} (h : encodeAscii limits context value = .ok bytes) :
    Reads (decodeAscii limits context') bytes value := by
  obtain ⟨characters, hall, rfl, hle, hnarrow, rfl⟩ := encodeAscii_eq_ok.mp h
  apply (readWord32_reads _ hnarrow).bind
  apply (Reads.require _ (decide_eq_true hle)).step
  rw [← List.append_nil characters]
  refine (takeBytes_reads _ (by rw [List.append_nil])).bind ?_
  rw [List.append_nil]
  exact (Reads.require _ hall).step (Reads.pure _)

theorem decodeAscii_yields : Yields (decodeAscii limits context') fun value items =>
    encodeAscii limits context value = .ok items := by
  apply (readWord32_yields _).bind
  rintro count _ ⟨hnarrow, rfl⟩
  apply Yields.require
  intro hle
  apply (takeBytes_yields _ _).bind
  rintro characters _ ⟨rfl, rfl⟩
  apply Yields.require
  intro hall
  apply Yields.pure
  rw [List.append_nil]
  exact encodeAscii_eq_ok.mpr ⟨characters, hall, rfl, of_decide_eq_true hle, hnarrow, rfl⟩

/-! ## Names -/

theorem encodePositive64_eq_ok {value : Int} :
    encodePositive64 context value = .ok bytes ↔ 0 < value ∧ bytes = word64 value.toNat := by
  unfold encodePositive64
  split
  · next hpositive =>
    constructor
    · intro h
      cases h
    · rintro ⟨h, -⟩
      omega
  · next hpositive =>
    constructor
    · intro h
      cases h
      exact ⟨by omega, rfl⟩
    · rintro ⟨-, rfl⟩
      rfl

theorem encodeResolvedName_eq_ok :
    encodeResolvedName limits context name = .ok bytes ↔
      0 < name.resolvedSymbol ∧ ∃ spelling,
        encodeText limits (context ++ " spelling") name.resolvedSpelling = .ok spelling ∧
          bytes = word64 name.resolvedSymbol.toNat ++ spelling := by
  constructor
  · intro h
    obtain ⟨_, hsymbol, h⟩ := bind_eq_ok.mp h
    obtain ⟨spelling, hspelling, h⟩ := bind_eq_ok.mp h
    cases h
    obtain ⟨hpositive, rfl⟩ := encodePositive64_eq_ok.mp hsymbol
    exact ⟨hpositive, spelling, hspelling, rfl⟩
  · rintro ⟨hpositive, spelling, hspelling, rfl⟩
    apply bind_eq_ok.mpr
    refine ⟨_, encodePositive64_eq_ok.mpr ⟨hpositive, rfl⟩, ?_⟩
    apply bind_eq_ok.mpr
    exact ⟨spelling, hspelling, rfl⟩

theorem decodeResolvedName_reads
    (hmachine : Core.Wire.ResolvedName.machine name) (h : encodeResolvedName limits context name = .ok bytes) :
    Reads (decodeResolvedName limits context') bytes name := by
  have hupper : name.resolvedSymbol < 2 ^ 63 := by simpa [Core.Wire.ResolvedName.machine] using hmachine
  obtain ⟨hpositive, spelling, hspelling, rfl⟩ := encodeResolvedName_eq_ok.mp h
  refine (readWord64_reads context' (by omega)).bind ?_
  refine (Reads.require _ (by simp; omega)).step ?_
  refine (Reads.require _ (by simp; omega)).step ?_
  rw [Int.toNat_of_nonneg (by omega)]
  exact (decodeText_reads hspelling).last

theorem decodeResolvedName_yields : Yields (decodeResolvedName limits context') fun name items =>
    Core.Wire.ResolvedName.machine name = true ∧ encodeResolvedName limits context name = .ok items := by
  apply (readWord64_yields _).bind
  rintro raw _ ⟨-, rfl⟩
  apply Yields.require
  intro hpositive
  apply Yields.require
  intro hupper
  apply (@decodeText_yields limits (context ++ " spelling") (context' ++ " spelling")).last
  intro spelling items hspelling
  constructor
  · simp only [Core.Wire.ResolvedName.machine, decide_eq_true_eq] at hupper ⊢
    omega
  apply encodeResolvedName_eq_ok.mpr
  exact ⟨Int.natCast_pos.mpr (of_decide_eq_true hpositive), items, hspelling, rfl⟩

theorem decodeQualifiedName_reads {name : QualifiedName}
    (h : encodeQualifiedName limits name = .ok bytes) : Reads (decodeQualifiedName limits) bytes name :=
  decodeVectorWithMaximum_reads h fun _ _ _ hpart => decodeText_reads hpart

theorem decodeQualifiedName_yields : Yields (decodeQualifiedName limits) fun name items =>
    encodeQualifiedName limits name = .ok items :=
  decodeVectorWithMaximum_yields_encoded decodeText_yields

end Tala.CorePrep.Wire
