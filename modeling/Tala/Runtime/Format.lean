import Tala.Library.Limbs
import Tala.Runtime.Scalars

/-!
# `Runtime.Format` — the conversions of the output format

A floating-point value is written exactly: `Natural` holds its significand times a power of ten and a power of
two, and gives the decimal digits one division at a time. A `Natural` has room for `limbCapacity` limbs and the
program is stopped, here `none`, when one more is needed.
-/

namespace Tala.Runtime.Text

open Tala.Library

/-! ## Conversions -/

def flagLeft : Int64 := 1
def flagZero : Int64 := 2
def flagPlus : Int64 := 4
def flagSpace : Int64 := 8
def flagAlternate : Int64 := 16
def flagGroup : Int64 := 32
def flagHexadecimal : Int64 := 64

/-- A width or a precision that the conversion does not have. -/
def absent : Int64 := -1

/-- The parts of one conversion. -/
structure Conversion where
  flags : Int64
  width : Int64
  precision : Int64
deriving DecidableEq

def Conversion.has (conversion : Conversion) (flag : Int64) : Bool := conversion.flags &&& flag != 0

/-- What brings a field of so many scalars to the width. -/
def Conversion.padding (conversion : Conversion) (size : Nat) : Nat :=
  if 0 < conversion.width.toInt ∧ size < conversion.width.toInt.toNat then conversion.width.toInt.toNat - size
  else 0

/-- The field: what stands before the digits, the body, and the padding that brings the two to the width. -/
def appendField (allocator : Allocator) (output : Scalars) (lead : List Char) (body : Scalars)
    (conversion : Conversion) (zerosAllowed : Bool) : Option Scalars :=
  let padding := conversion.padding (lead.length + body.size)
  let left := conversion.has flagLeft
  let zeros := zerosAllowed && !left && conversion.has flagZero
  (if !left && !zeros then output.fill allocator ' ' padding else some output).bind fun output =>
  (output.appendAscii allocator lead).bind fun output =>
  (if zeros then output.fill allocator '0' padding else some output).bind fun output =>
  (output.appendAll allocator body.content).bind fun output =>
  if left then output.fill allocator ' ' padding else some output

/-- The sign a number is written with. -/
def sign (negative : Bool) (conversion : Conversion) : List Char :=
  if negative then ['-']
  else if conversion.has flagPlus then ['+']
  else if conversion.has flagSpace then [' ']
  else []

/-! ## Natural numbers -/

def limbCapacity : Nat := 160

/-- A natural number of bounded size: its limbs in use, the least significant first. -/
structure Natural where
  limbs : List UInt32
  fits : limbs.length ≤ limbCapacity

namespace Natural

def ofUInt64 (value : UInt64) : Natural :=
  let low := (value &&& 0xffffffff).toUInt32
  let high := (value >>> 32).toUInt32
  ⟨if high ≠ 0 then [low, high] else if low ≠ 0 then [low] else [], by
    split_ifs <;> simp [limbCapacity]⟩

def isZero (natural : Natural) : Bool := natural.limbs.isEmpty

def push (natural : Natural) (limb : UInt32) : Option Natural :=
  if hfull : natural.limbs.length = limbCapacity then none
  else some ⟨natural.limbs ++ [limb], by
    have hfits := natural.fits
    simp
    omega⟩

def multiply (natural : Natural) (factor : UInt32) : Option Natural :=
  let product : Natural := ⟨(Limbs.multiply factor natural.limbs 0).1, by
    rw [Limbs.multiply_length]
    exact natural.fits⟩
  let carry := (Limbs.multiply factor natural.limbs 0).2
  if carry ≠ 0 then product.push carry.toUInt32 else some product

/-- The limbs shifted by less than a limb, one more of them when bits leave the last. -/
def shiftedPart (natural : Natural) (part : UInt32) : List UInt32 :=
  let (limbs, carried) := if part ≠ 0 then Limbs.shiftLeft part natural.limbs 0 else (natural.limbs, 0)
  if carried ≠ 0 then limbs ++ [carried] else limbs

theorem shiftedPart_length (natural : Natural) (part : UInt32) :
    (natural.shiftedPart part).length ≤ natural.limbs.length + 1 := by
  unfold shiftedPart
  by_cases hpart : part ≠ 0
  · rw [if_pos hpart]
    have hlength := Limbs.shiftLeft_length part natural.limbs 0
    dsimp only
    split
    · simp [hlength]
    · omega
  · rw [if_neg hpart]
    simp

def shiftLeft (natural : Natural) (bits : Nat) : Option Natural :=
  if natural.isZero || bits = 0 then some natural
  else
    let whole := bits / 32
    let part := UInt32.ofNat (bits % 32)
    if hfull : limbCapacity < natural.limbs.length + whole + 1 then none
    else some ⟨List.replicate whole 0 ++ natural.shiftedPart part, by
      have hlength := natural.shiftedPart_length part
      rw [List.length_append, List.length_replicate]
      omega⟩

def bit (natural : Natural) (position : Nat) : Bool :=
  match natural.limbs[position / 32]? with
  | some limb => limb >>> UInt32.ofNat (position % 32) &&& 1 != 0
  | none => false

/-- Whether a limb, where it is in use, has a bit of the mask. -/
def limbHas (natural : Natural) (index : Nat) (mask : UInt32) : Bool :=
  match natural.limbs[index]? with
  | some limb => limb &&& mask != 0
  | none => false

/-- Whether a bit below the position is set. -/
def below (natural : Natural) (position : Nat) : Bool :=
  (natural.limbs.take (position / 32)).any (· != 0) ||
    (position % 32 != 0 && natural.limbHas (position / 32) ((1 <<< UInt32.ofNat (position % 32)) - 1))

def increment (natural : Natural) : Option Natural :=
  let next : Natural := ⟨(Limbs.increment natural.limbs).1, by
    rw [Limbs.increment_length]
    exact natural.fits⟩
  if (Limbs.increment natural.limbs).2 then next.push 1 else some next

/-- Divides by a power of two and drops the bits below. -/
def shiftRight (natural : Natural) (bits : Nat) : Natural :=
  if natural.limbs.length ≤ bits / 32 then ⟨[], by decide⟩
  else ⟨Limbs.trim (Limbs.shiftRight (UInt32.ofNat (bits % 32)) (natural.limbs.drop (bits / 32))), by
    refine le_trans (Limbs.length_trim_le _) ?_
    rw [Limbs.shiftRight_length, List.length_drop]
    exact le_trans (Nat.sub_le _ _) natural.fits⟩

def isOdd (natural : Natural) : Bool :=
  match natural.limbs with
  | limb :: _ => limb &&& 1 != 0
  | [] => false

/-- Divides by a power of two and rounds to the nearest integer, of two equally near ones to the even one. -/
def shiftRightToNearestEven (natural : Natural) (bits : Nat) : Option Natural :=
  if bits = 0 || natural.isZero then some natural
  else
    let half := natural.bit (bits - 1)
    let below := natural.below (bits - 1)
    let shifted := natural.shiftRight bits
    if half && (below || shifted.isOdd) then shifted.increment else some shifted

/-- The quotient and what remains. -/
def divide (natural : Natural) (divisor : UInt32) : Natural × UInt32 :=
  (⟨Limbs.trim (Limbs.divide divisor natural.limbs).1, by
    refine le_trans (Limbs.length_trim_le _) ?_
    rw [Limbs.divide_length]
    exact natural.fits⟩, (Limbs.divide divisor natural.limbs).2.toUInt32)

/-- The number that the limbs stand for. -/
def value (natural : Natural) : Nat := Limbs.value natural.limbs

end Natural

/-! ## Integers -/

/-- Integer digits, the least significant first, with a separator after every third when they are grouped. -/
structure ReversedDigits where
  digits : Scalars
  grouped : Bool
  count : Nat

/-- The apostrophe. -/
def separator : Char := Char.ofNat 39

def ReversedDigits.append (allocator : Allocator) (reversed : ReversedDigits) (digit : Char) :
    Option ReversedDigits :=
  (if reversed.grouped && reversed.count != 0 && reversed.count % 3 = 0
    then reversed.digits.append allocator separator else some reversed.digits).bind fun digits =>
  (digits.append allocator digit).map fun digits =>
    { reversed with digits := digits, count := reversed.count + 1 }

def integerDigit (digit : Nat) : Char :=
  Char.ofNat (if digit < 10 then '0'.toNat + digit else 'a'.toNat + (digit - 10))

/-- The digits of a magnitude: at least one. -/
def magnitudeDigits (allocator : Allocator) (base : Nat) (hbase : 1 < base) (magnitude : Nat)
    (reversed : ReversedDigits) : Option ReversedDigits :=
  (reversed.append allocator (integerDigit (magnitude % base))).bind fun reversed =>
    if magnitude / base ≠ 0 then magnitudeDigits allocator base hbase (magnitude / base) reversed
    else some reversed
termination_by magnitude
decreasing_by
  rename_i hmore
  refine Nat.div_lt_self (Nat.pos_of_ne_zero ?_) hbase
  rintro rfl
  exact hmore (Nat.zero_div base)

def appendInteger (allocator : Allocator) (output : Scalars) (negative : Bool) (magnitude : UInt64)
    (conversion : Conversion) : Option Scalars :=
  let hexadecimal := conversion.has flagHexadecimal
  let reversed : ReversedDigits := ⟨Scalars.empty, !hexadecimal && conversion.has flagGroup, 0⟩
  (if hexadecimal then magnitudeDigits allocator 16 (by decide) magnitude.toNat reversed
    else magnitudeDigits allocator 10 (by decide) magnitude.toNat reversed).bind fun reversed =>
  let lead := sign negative conversion ++
    if hexadecimal && conversion.has flagAlternate then ['0', 'x'] else []
  appendField allocator output lead (reversed.digits.reverseFrom 0) conversion true

/-! ## Floating-point values -/

/-- The most digits after the point that a finite value has. -/
def exactFractionDigits : Nat := 1074

def powerOfTen : Nat → UInt32
  | 0 => 1
  | exponent + 1 => powerOfTen exponent * 10

/-- Multiplies by ten to the power of the digits that are not done, at most nine at once. -/
def scaleByTens (computed done : Nat) (scaled : Natural) : Option Natural :=
  if done < computed then
    let step := if 9 ≤ computed - done then 9 else computed - done
    (scaled.multiply (powerOfTen step)).bind fun scaled => scaleByTens computed (done + step) scaled
  else some scaled
termination_by computed - done
decreasing_by split <;> omega

def nextDigit (scaled : Natural) : Char × Natural :=
  (Char.ofNat ('0'.toNat + (scaled.divide 10).2.toNat), (scaled.divide 10).1)

/-- So many digits, the least significant first. -/
def fractionDigits (allocator : Allocator) : Nat → Scalars → Natural → Option (Scalars × Natural)
  | 0, body, scaled => some (body, scaled)
  | count + 1, body, scaled =>
      (body.append allocator (nextDigit scaled).1).bind fun body =>
        fractionDigits allocator count body (nextDigit scaled).2

namespace Natural

theorem divide_value (natural : Natural) {divisor : UInt32} (hdivisor : 0 < divisor.toNat) :
    (natural.divide divisor).1.value = natural.value / divisor.toNat := by
  unfold divide value
  rw [Limbs.value_trim, (Limbs.divide_spec hdivisor natural.limbs).1]

theorem divide_isZero (natural : Natural) (divisor : UInt32) :
    (natural.divide divisor).1.isZero = true ↔ (natural.divide divisor).1.value = 0 := by
  unfold divide value isZero
  rw [List.isEmpty_iff, Limbs.trim_eq_nil_iff, Limbs.value_trim]

end Natural

/-- The digits that are left, at least one, the least significant first. -/
def integerDigits (allocator : Allocator) (integer : ReversedDigits) (scaled : Natural) : Option ReversedDigits :=
  (integer.append allocator (nextDigit scaled).1).bind fun integer =>
    if (nextDigit scaled).2.isZero then some integer
    else integerDigits allocator integer (nextDigit scaled).2
termination_by scaled.value
decreasing_by
  rename_i hmore
  have hten : 0 < (10 : UInt32).toNat := by decide
  have hvalue : (nextDigit scaled).2.value = scaled.value / 10 := scaled.divide_value hten
  have hne : (nextDigit scaled).2.value ≠ 0 := fun h => hmore ((scaled.divide_isZero 10).mpr h)
  omega

/-- The parts of a double by its bits. -/
structure Parts where
  negative : Bool
  exponentField : Nat
  fraction : UInt64

def Parts.ofBits (bits : UInt64) : Parts where
  negative := bits >>> 63 != 0
  exponentField := (bits >>> 52 &&& 0x7ff).toNat
  fraction := bits &&& (((1 : UInt64) <<< 52) - 1)

def Parts.significand (parts : Parts) : UInt64 :=
  if parts.exponentField = 0 then parts.fraction else parts.fraction ||| (1 : UInt64) <<< 52

def Parts.exponent (parts : Parts) : Int :=
  if parts.exponentField = 0 then -1074 else parts.exponentField - 1075

/-- The value times ten to the number of computed digits, rounded to the nearest integer. -/
def scaledValue (parts : Parts) (computed : Nat) : Option Natural :=
  (scaleByTens computed 0 (Natural.ofUInt64 parts.significand)).bind fun scaled =>
    if 0 ≤ parts.exponent then scaled.shiftLeft parts.exponent.toNat
    else scaled.shiftRightToNearestEven (-parts.exponent).toNat

/-- Zeros for the digits that are not computed. -/
def appendZeros (allocator : Allocator) : Nat → Scalars → Option Scalars
  | 0, body => some body
  | count + 1, body => (body.append allocator '0').bind fun body => appendZeros allocator count body

/-- The digits and the point of a scaled value, from the last one to the first. -/
def reversedBody (allocator : Allocator) (scaled : Natural) (precision computed : Nat) (grouped : Bool) :
    Option Scalars :=
  (appendZeros allocator (precision - computed) Scalars.empty).bind fun body =>
  (fractionDigits allocator computed body scaled).bind fun (body, scaled) =>
  (if 0 < precision then body.append allocator '.' else some body).bind fun body =>
  (integerDigits allocator ⟨body, grouped, 0⟩ scaled).map fun integer => integer.digits

def Conversion.fractionLength (conversion : Conversion) : Nat :=
  if conversion.precision.toInt < 0 then 6 else conversion.precision.toInt.toNat

def appendFloating (allocator : Allocator) (output : Scalars) (bits : UInt64) (conversion : Conversion) :
    Option Scalars :=
  let parts := Parts.ofBits bits
  if parts.exponentField = 0x7ff then
    (Scalars.empty.appendAscii allocator
      (if parts.fraction ≠ 0 then ['n', 'a', 'n'] else ['i', 'n', 'f'])).bind fun body =>
    appendField allocator output (if parts.fraction ≠ 0 then [] else sign parts.negative conversion) body
      conversion false
  else
    let precision := conversion.fractionLength
    let computed := if precision < exactFractionDigits then precision else exactFractionDigits
    (scaledValue parts computed).bind fun scaled =>
    (reversedBody allocator scaled precision computed (conversion.has flagGroup)).bind fun body =>
    appendField allocator output (sign parts.negative conversion) (body.reverseFrom 0) conversion true

/-! ## Texts -/

def appendText (allocator : Allocator) (output : Scalars) (scalars : List Char) (conversion : Conversion) :
    Option Scalars :=
  let count := if 0 ≤ conversion.precision.toInt ∧ conversion.precision.toInt.toNat < scalars.length
    then conversion.precision.toInt.toNat else scalars.length
  (Scalars.empty.appendAll allocator (scalars.take count)).bind fun body =>
    appendField allocator output [] body conversion false

end Tala.Runtime.Text
