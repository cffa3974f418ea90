import Tala.AST

/-!
# `Core.Scalar` — built-in scalar types

The catalog of scalar types that Core verification and optimization share: which spellings are
integers or floating-point numbers, how wide an integer is, which values it holds, and which floating
spellings are well formed.

Clients reason about an integer type through its layout (`integerLayout?`): range, width and signedness
are all read off the one pair it returns.
-/

namespace Tala.Core

open Tala

/-- Leaf spelling of a non-generic built-in type, empty for every other type. -/
def coreTypeSpelling : Ty → String
  | .namedType [name] [] => name
  | _ => ""

/-- Signedness and width of every integer type. -/
def integerLayouts : List (String × Bool × Nat) :=
  [ ("char", false, 32)
  , ("byte", true, 8)
  , ("short", true, 16)
  , ("long", true, 32)
  , ("int", true, 64)
  , ("longint", true, 128)
  , ("ubyte", false, 8)
  , ("ushort", false, 16)
  , ("ulong", false, 32)
  , ("uint", false, 64)
  , ("ulongint", false, 128) ]

/-- Canonical integer type names. -/
def coreIntegerTypeNames : List String := integerLayouts.map Prod.fst

/-- Canonical floating-point type names. -/
def coreFloatingTypeNames : List String := ["sfloat", "lfloat", "float", "double"]

/-- Integer and floating names accepted by Core's numeric rules. -/
def coreNumericTypeNames : List String := coreIntegerTypeNames ++ coreFloatingTypeNames

/-- Whether a type is a built-in integer scalar. -/
def isCoreIntegerType (valueType : Ty) : Bool := coreIntegerTypeNames.contains (coreTypeSpelling valueType)

/-- Whether a type is a built-in floating scalar. -/
def isCoreFloatingType (valueType : Ty) : Bool := coreFloatingTypeNames.contains (coreTypeSpelling valueType)

/-- Whether a type is an integer or floating scalar. -/
def isCoreNumericType (valueType : Ty) : Bool := coreNumericTypeNames.contains (coreTypeSpelling valueType)

/-- The row of `integerLayouts` a type has. -/
def integerLayout? (valueType : Ty) : Option (Bool × Nat) :=
  integerLayouts.lookup (coreTypeSpelling valueType)

/-- Storage width of a built-in integer type. -/
def coreIntegerBitWidth (valueType : Ty) : Option Nat := (integerLayout? valueType).map Prod.snd

/-- Whether a built-in integer type uses a sign bit. -/
def coreIntegerIsSigned (valueType : Ty) : Option Bool := (integerLayout? valueType).map Prod.fst

/-- Two to the number of value bits of an integer layout. -/
def layoutMagnitude (layout : Bool × Nat) : Int := 2 ^ (layout.2 - if layout.1 then 1 else 0)

/-- Least value of an integer layout. -/
def layoutMinimum (layout : Bool × Nat) : Int := if layout.1 then -layoutMagnitude layout else 0

/-- Greatest value of an integer layout. -/
def layoutMaximum (layout : Bool × Nat) : Int := layoutMagnitude layout - 1

/-- Whether an exact integer lies in the range of an integer type. -/
def integerFitsCoreType (valueType : Ty) (value : Int) : Bool :=
  match integerLayout? valueType with
  | some layout => layoutMinimum layout ≤ value && value ≤ layoutMaximum layout
  | none => false

/-! ## Floating spellings -/

/-- `digits` of the source: at least one character, all of them ASCII digits. -/
def digits (value : List Char) : Bool :=
  !value.isEmpty && value.all (fun character => '0' ≤ character && character ≤ '9')

/-- `digitsOrEmpty` of the source. -/
def digitsOrEmpty (value : List Char) : Bool :=
  value.isEmpty || value.all (fun character => '0' ≤ character && character ≤ '9')

/-- Drop one leading sign. -/
def dropSign : List Char → List Char
  | '+' :: remaining => remaining
  | '-' :: remaining => remaining
  | value => value

/-- The whole and fraction digits around an optional point. -/
def validMantissa (value : List Char) : Bool :=
  match value.span (· ≠ '.') with
  | (whole, []) => digits whole
  | (whole, _ :: fraction) =>
      (!whole.isEmpty || !fraction.isEmpty) && digitsOrEmpty whole && digitsOrEmpty fraction

/-- An exponent part is absent, or its letter is followed by an optional sign and digits. -/
def validExponent : List Char → Bool
  | [] => true
  | _ :: remaining => digits (dropSign remaining)

/-- A deterministic ASCII decimal or a supported special floating spelling. -/
def validCoreFloatingSpelling (spelling : String) : Bool :=
  ["nan", "+nan", "-nan", "inf", "+inf", "-inf"].contains spelling ||
    match dropSign spelling.toList with
    | [] => false
    | unsignedSpelling =>
        let (mantissa, exponentPart) := unsignedSpelling.span (fun c => !(['e', 'E'].contains c))
        validMantissa mantissa && validExponent exponentPart

example : validCoreFloatingSpelling "-.5e+10" = true ∧ validCoreFloatingSpelling "." = false := by
  decide

/-! ## Layout facts -/

theorem isCoreIntegerType_iff_layout {valueType : Ty} :
    isCoreIntegerType valueType = true ↔ ∃ layout, integerLayout? valueType = some layout := by
  rw [← Option.isSome_iff_exists, integerLayout?, List.lookup_isSome_iff]
  simp [isCoreIntegerType, coreIntegerTypeNames, integerLayouts]

theorem isCoreNumericType_eq (valueType : Ty) :
    isCoreNumericType valueType = (isCoreIntegerType valueType || isCoreFloatingType valueType) := by
  rw [Bool.eq_iff_iff, Bool.or_eq_true]
  simp only [isCoreNumericType, isCoreIntegerType, isCoreFloatingType, coreNumericTypeNames,
    List.contains_iff_mem, List.mem_append]

theorem layoutMagnitude_pos (layout : Bool × Nat) : 0 < layoutMagnitude layout :=
  Int.pow_pos (by decide)

theorem layoutMinimum_nonpos (layout : Bool × Nat) : layoutMinimum layout ≤ 0 := by
  have := layoutMagnitude_pos layout
  unfold layoutMinimum
  split <;> omega

theorem layoutMaximum_nonneg (layout : Bool × Nat) : 0 ≤ layoutMaximum layout := by
  have := layoutMagnitude_pos layout
  unfold layoutMaximum
  omega

theorem integerFitsCoreType_iff {valueType : Ty} {value : Int} {layout : Bool × Nat}
    (h : integerLayout? valueType = some layout) :
    integerFitsCoreType valueType value = true ↔
      layoutMinimum layout ≤ value ∧ value ≤ layoutMaximum layout := by
  simp [integerFitsCoreType, h]

/-- Zero is a value of every integer type. -/
theorem integerFitsCoreType_zero {valueType : Ty} (h : isCoreIntegerType valueType = true) :
    integerFitsCoreType valueType 0 = true := by
  obtain ⟨layout, hl⟩ := isCoreIntegerType_iff_layout.mp h
  exact (integerFitsCoreType_iff hl).mpr ⟨layoutMinimum_nonpos layout, layoutMaximum_nonneg layout⟩

end Tala.Core
