import Tala.Core.IR
import Tala.Library.BinaryFloat

/-!
# `Core.Optimizer.Floating` — folding of floating literals

Literals keep their decimal spelling up to code generation. The optimizer folds a primitive on floating
literals with exact ratios: it reads the spellings, rounds once to the format of the type, and prints the
shortest decimal that reads back to the same value. Spellings are lists of characters here.
-/

namespace Tala.Core.Optimizer.Floating

open Tala Tala.Core Tala.Library.BinaryFloat

abbrev BinaryFormat := Format

abbrev FloatingValue := Datum

/-- The format of a floating type. -/
def formatFor (valueType : Ty) : Option BinaryFormat :=
  match coreTypeSpelling valueType with
  | "sfloat" => some ⟨11, -14, 15, by decide, by decide⟩
  | "lfloat" => some ⟨24, -126, 127, by decide, by decide⟩
  | "float" => some ⟨53, -1022, 1023, by decide, by decide⟩
  | "double" => some ⟨113, -16382, 16383, by decide, by decide⟩
  | _ => none

/-! ## Rounding -/

/-- Number of binary digits, counted in words of 64. -/
def integerBitLength (value : Int) : Int :=
  if value ≤ 0 then 0
  else if value < 2 ^ 64 then Nat.log2 value.toNat + 1
  else 64 + integerBitLength (value / 2 ^ 64)
termination_by value.toNat

def compareToPowerOfTwo (top bottom binaryExponent : Int) : Ordering :=
  if binaryExponent ≥ 0 then compare top (bottom * 2 ^ binaryExponent.toNat)
  else compare (top * 2 ^ (-binaryExponent).toNat) bottom

def floorLog2 (value : ℚ) : Int :=
  let top := value.num
  let bottom : Int := value.den
  let estimate := integerBitLength top - integerBitLength bottom
  if compareToPowerOfTwo top bottom estimate = .lt then estimate - 1 else estimate

def scaleByPowerOfTwo (value : ℚ) (binaryExponent : Int) : ℚ :=
  if binaryExponent ≥ 0 then mkRat (value.num * 2 ^ binaryExponent.toNat) value.den
  else mkRat value.num (value.den * 2 ^ (-binaryExponent).toNat)

def roundRatioToEven (value : ℚ) : Int :=
  let top := value.num
  let bottom : Int := value.den
  let quotient := top.tdiv bottom
  let twiceRemainder := 2 * top.tmod bottom
  match compare twiceRemainder bottom with
  | .lt => quotient
  | .gt => quotient + 1
  | .eq => if quotient % 2 = 0 then quotient else quotient + 1

def minimumSubnormalExponent (format : BinaryFormat) : Int :=
  format.minimumExponent - (format.precision - 1)

def roundToFormat (format : BinaryFormat) (negative : Bool) (exact : ℚ) : FloatingValue :=
  let binaryExponent := floorLog2 exact
  if exact = 0 then .finite negative 0
  else if binaryExponent < format.minimumExponent then
    let quantum := minimumSubnormalExponent format
    let subnormalSignificand := roundRatioToEven (scaleByPowerOfTwo exact (-quantum))
    if subnormalSignificand = 0 then .finite negative 0
    else .finite negative (scaleByPowerOfTwo (mkRat subnormalSignificand 1) quantum)
  else
    let quantum := binaryExponent - (format.precision - 1)
    let roundedSignificand := roundRatioToEven (scaleByPowerOfTwo exact (-quantum))
    let (finalExponent, finalSignificand) :=
      if roundedSignificand = 2 ^ format.precision then (binaryExponent + 1, roundedSignificand.tdiv 2)
      else (binaryExponent, roundedSignificand)
    if finalExponent > format.maximumExponent then .infinity negative
    else .finite negative
      (scaleByPowerOfTwo (mkRat finalSignificand 1) (finalExponent - (format.precision - 1)))

/-! ## Reading spellings -/

def isAsciiDigit (value : Char) : Bool := '0' ≤ value && value ≤ '9'

def stripLeadingSign : List Char → Bool × List Char
  | '+' :: remaining => (false, remaining)
  | '-' :: remaining => (true, remaining)
  | value => (false, value)

/-- At most 19 digits. -/
def readDigits (negative : Bool) (digits : List Char) : Option Int :=
  if digits.isEmpty || digits.length > 19 || digits.any (fun digit => !isAsciiDigit digit) then none
  else
    let value : Int := Nat.ofDigitChars 10 digits 0
    some (if negative then -value else value)

def readSignedDecimal : List Char → Option Int
  | [] => none
  | '+' :: digits => readDigits false digits
  | '-' :: digits => readDigits true digits
  | digits => readDigits false digits

def maximumFoldedSignificantDigits : Nat := 512

/-- The digits of a mantissa, and how many of them are behind the point. -/
def mantissaDigits (mantissa : List Char) : List Char × Nat :=
  let (whole, fractionWithPoint) := mantissa.span (· ≠ '.')
  let fraction := fractionWithPoint.drop 1
  (whole ++ fraction, fraction.length)

def exponentValue : List Char → Option Int
  | [] => some 0
  | _ :: rest => readSignedDecimal rest

/-- The coefficient without its outer zeros, its power of ten, and its number of digits. -/
def significant (digits : List Char) (exponent : Int) : Option (Int × Int × Nat) :=
  let leadingZeroesRemoved := digits.dropWhile (· = '0')
  if leadingZeroesRemoved.isEmpty then some (0, 0, 1)
  else
    let trailingZeroes := (leadingZeroesRemoved.reverse.takeWhile (· = '0')).length
    let significantSpelling := leadingZeroesRemoved.take (leadingZeroesRemoved.length - trailingZeroes)
    let significantDigits := significantSpelling.length
    if significantDigits > maximumFoldedSignificantDigits then none
    else some (Nat.ofDigitChars 10 significantSpelling 0, exponent + trailingZeroes, significantDigits)

def parseDecimal (spelling : List Char) : Option (Int × Int × Nat) :=
  let (mantissa, exponentText) := spelling.span (fun character => !(['e', 'E'].contains character))
  let (digits, fractionLength) := mantissaDigits mantissa
  match exponentValue exponentText with
  | none => none
  | some decimalExponent =>
      if digits.isEmpty || digits.any (fun digit => !isAsciiDigit digit) then none
      else significant digits (decimalExponent - fractionLength)

/-- The power of ten of the first digit. -/
def decimalOrder (significantDigits : Nat) (scale : Int) : Int := significantDigits - 1 + scale

def isDefinitelyBelowHalfMinSubnormal (format : BinaryFormat) (significantDigits : Nat) (scale : Int) :
    Bool :=
  decimalOrder significantDigits scale < minimumSubnormalExponent format / 3 - 2

def decimalRational (coefficient scale : Int) : Option ℚ :=
  if scale > 10000 || scale < -10000 then none
  else if scale ≥ 0 then some (mkRat (coefficient * 10 ^ scale.toNat) 1)
  else some (mkRat coefficient (10 ^ (-scale).toNat))

def parseFloatingValue (format : BinaryFormat) (spelling : List Char) : Option FloatingValue :=
  let (negative, unsigned) := stripLeadingSign spelling
  if unsigned = "nan".toList then some .notANumber
  else if unsigned = "inf".toList then some (.infinity negative)
  else
    match parseDecimal unsigned with
    | none => none
    | some (coefficient, decimalScale, significantDigits) =>
        if coefficient = 0 then some (.finite negative 0)
        else if decimalOrder significantDigits decimalScale > format.maximumExponent then
          some (.infinity negative)
        else if isDefinitelyBelowHalfMinSubnormal format significantDigits decimalScale then
          some (.finite negative 0)
        else (decimalRational coefficient decimalScale).map (roundToFormat format negative)

/-! ## Printing spellings -/

def signed (negative : Bool) (value : List Char) : List Char :=
  if negative then '-' :: value else value

def showInteger : Int → List Char
  | .ofNat value => Nat.toDigits 10 value
  | .negSucc value => '-' :: Nat.toDigits 10 (value + 1)

def compareToPowerOfTen (top bottom decimalExponent : Int) : Ordering :=
  if decimalExponent ≥ 0 then compare top (bottom * 10 ^ decimalExponent.toNat)
  else compare (top * 10 ^ (-decimalExponent).toNat) bottom

def floorLog10 (value : ℚ) : Int :=
  let top := value.num
  let bottom : Int := value.den
  let estimate : Int := (showInteger top).length - (showInteger bottom).length
  if compareToPowerOfTen top bottom estimate = .lt then estimate - 1 else estimate

def renderScientific (requestedDigits : Nat) (exact : ℚ) : List Char :=
  let order := floorLog10 exact
  let decimalShift : Int := requestedDigits - 1 - order
  let scaled :=
    if decimalShift ≥ 0 then roundRatioToEven (mkRat (exact.num * 10 ^ decimalShift.toNat) exact.den)
    else roundRatioToEven (mkRat exact.num (exact.den * 10 ^ (-decimalShift).toNat))
  let limit : Int := 10 ^ requestedDigits
  let decimalSignificand := if scaled ≥ limit then scaled.tdiv 10 else scaled
  let adjustedOrder := if scaled ≥ limit then order + 1 else order
  let shown := showInteger decimalSignificand
  let padded := List.replicate (requestedDigits - shown.length) '0' ++ shown
  let leading := padded.take 1
  let trailing := padded.drop 1
  let compactFraction := (trailing.reverse.dropWhile (· = '0')).reverse
  let fraction := if compactFraction.isEmpty then ['0'] else compactFraction
  leading ++ '.' :: fraction ++ 'e' :: showInteger adjustedOrder

/-- Whether a spelling without a sign reads back to a value. -/
def readsBack (format : BinaryFormat) (negative : Bool) (target : FloatingValue)
    (spelling : List Char) : Bool :=
  match parseDecimal spelling with
  | none => false
  | some (coefficient, scale, _) =>
      match decimalRational coefficient scale with
      | none => false
      | some roundTrip => roundToFormat format negative roundTrip = target

def maximumDigits (format : BinaryFormat) : Nat := (30103 * format.precision + 99999) / 100000 + 1

/-- `shortest 1`: the first number of digits that reads back, or the greatest one. -/
def shortest (format : BinaryFormat) (negative : Bool) (value : ℚ) : List Char :=
  let candidates := (List.range' 1 (maximumDigits format)).map fun digits => renderScientific digits value
  (candidates.find? (readsBack format negative (.finite negative value))).getD
    (renderScientific (maximumDigits format) value)

def renderFloatingValue (format : BinaryFormat) : FloatingValue → List Char
  | .notANumber => "nan".toList
  | .infinity negative => signed negative "inf".toList
  | .finite negative value =>
      if value = 0 then signed negative "0.0".toList
      else signed negative (shortest format negative value)

/-! ## Operations -/

def signedMagnitude (negative : Bool) (value : ℚ) : ℚ := if negative then -value else value

def negateValue : FloatingValue → FloatingValue
  | .notANumber => .notANumber
  | .infinity negative => .infinity (!negative)
  | .finite negative value => .finite (!negative) value

def addFloating (format : BinaryFormat) : FloatingValue → FloatingValue → Option FloatingValue
  | .notANumber, _ => some .notANumber
  | _, .notANumber => some .notANumber
  | .infinity leftSign, .infinity rightSign =>
      if leftSign = rightSign then some (.infinity leftSign) else some .notANumber
  | .infinity negative, _ => some (.infinity negative)
  | _, .infinity negative => some (.infinity negative)
  | .finite leftSign leftMagnitude, .finite rightSign rightMagnitude =>
      let exact := signedMagnitude leftSign leftMagnitude + signedMagnitude rightSign rightMagnitude
      let zeroSign := exact = 0 && leftMagnitude = 0 && rightMagnitude = 0 && leftSign && rightSign
      some (roundToFormat format (if exact = 0 then zeroSign else exact < 0) |exact|)

def subtractFloating (format : BinaryFormat) (left right : FloatingValue) : Option FloatingValue :=
  addFloating format left (negateValue right)

def multiplyFloating (format : BinaryFormat) : FloatingValue → FloatingValue → Option FloatingValue
  | .notANumber, _ => some .notANumber
  | _, .notANumber => some .notANumber
  | .infinity leftSign, .infinity rightSign => some (.infinity (leftSign != rightSign))
  | .infinity leftSign, .finite rightSign rightMagnitude =>
      if rightMagnitude = 0 then some .notANumber else some (.infinity (leftSign != rightSign))
  | .finite leftSign leftMagnitude, .infinity rightSign =>
      if leftMagnitude = 0 then some .notANumber else some (.infinity (leftSign != rightSign))
  | .finite leftSign leftMagnitude, .finite rightSign rightMagnitude =>
      some (roundToFormat format (leftSign != rightSign) (leftMagnitude * rightMagnitude))

def divideFloating (format : BinaryFormat) : FloatingValue → FloatingValue → Option FloatingValue
  | .notANumber, _ => some .notANumber
  | _, .notANumber => some .notANumber
  | .infinity _, .infinity _ => some .notANumber
  | .infinity leftSign, .finite rightSign _ => some (.infinity (leftSign != rightSign))
  | .finite leftSign _, .infinity rightSign => some (.finite (leftSign != rightSign) 0)
  | .finite leftSign leftMagnitude, .finite rightSign rightMagnitude =>
      if leftMagnitude = 0 && rightMagnitude = 0 then some .notANumber
      else if rightMagnitude = 0 then some (.infinity (leftSign != rightSign))
      else if leftMagnitude = 0 then some (.finite (leftSign != rightSign) 0)
      else some (roundToFormat format (leftSign != rightSign) (leftMagnitude / rightMagnitude))

def remainderFloating (format : BinaryFormat) : FloatingValue → FloatingValue → Option FloatingValue
  | .notANumber, _ => some .notANumber
  | _, .notANumber => some .notANumber
  | .infinity _, _ => some .notANumber
  | .finite negative magnitude, .infinity _ => some (roundToFormat format negative magnitude)
  | .finite negative leftMagnitude, .finite _ rightMagnitude =>
      if rightMagnitude = 0 then some .notANumber
      else if leftMagnitude = 0 then some (.finite negative 0)
      else
        let quotient := leftMagnitude / rightMagnitude
        let truncated := quotient.num.tdiv quotient.den
        some (roundToFormat format negative (leftMagnitude - truncated * rightMagnitude))

def finiteValueToRational : FloatingValue → Option ℚ
  | .finite negative magnitude => some (signedMagnitude negative magnitude)
  | _ => none

def roundRatioAwayFromZero (value : ℚ) : Int :=
  let negative : Bool := value < 0
  let magnitude := |value|
  let whole := magnitude.num.tdiv magnitude.den
  let remainder := magnitude.num.tmod magnitude.den
  let rounded := if 2 * remainder ≥ magnitude.den then whole + 1 else whole
  if negative then -rounded else rounded

def compareFloating : FloatingValue → FloatingValue → Option Ordering
  | .notANumber, _ => none
  | _, .notANumber => none
  | .infinity left, .infinity right => some (compare right left)
  | .infinity true, .finite _ _ => some .lt
  | .infinity false, .finite _ _ => some .gt
  | .finite _ _, .infinity true => some .gt
  | .finite _ _, .infinity false => some .lt
  | .finite leftSign left, .finite rightSign right =>
      some (compare (signedMagnitude leftSign left) (signedMagnitude rightSign right))

/-! ## Folding -/

def decodeFloating (format : BinaryFormat) : CoreExpression → Option FloatingValue
  | .coreLiteral (.coreFloating spelling) _ => parseFloatingValue format spelling.toList
  | _ => none

/-- The values of literals of one floating type, with its format. -/
def floatingOperands : List CoreExpression → Option (BinaryFormat × List FloatingValue)
  | [] => none
  | first :: rest =>
      match formatFor (expressionType first) with
      | none => none
      | some format =>
          if (first :: rest).all (fun argument => expressionType argument = expressionType first) then
            ((first :: rest).mapM (decodeFloating format)).map (fun values => (format, values))
          else none

def floatingResult (format : BinaryFormat) (resultType : Ty) (value : FloatingValue) : CoreExpression :=
  .coreLiteral (.coreFloating (String.ofList (renderFloatingValue format value))) resultType

/-- An operation on two operands, in the format of the operands. -/
def foldArithmetic
    (operation : BinaryFormat → FloatingValue → FloatingValue → Option FloatingValue)
    (arguments : List CoreExpression) (resultType : Ty) : Option CoreExpression :=
  match floatingOperands arguments with
  | some (format, [left, right]) =>
      (operation format left right).map (floatingResult format resultType)
  | _ => none

def foldNegation (arguments : List CoreExpression) (resultType : Ty) : Option CoreExpression :=
  match floatingOperands arguments with
  | some (format, [value]) => some (floatingResult format resultType (negateValue value))
  | _ => none

def foldRoundedDivision (arguments : List CoreExpression) (resultType : Ty) : Option CoreExpression :=
  match floatingOperands arguments with
  | some (format, [left, right]) =>
      match (divideFloating format left right).bind finiteValueToRational with
      | none => none
      | some quotient =>
          let rounded := roundRatioAwayFromZero quotient
          if integerFitsCoreType resultType rounded then
            some (.coreLiteral (.coreInteger rounded) resultType)
          else none
  | _ => none

/-- A comparison, with its answer for operands that are not ordered. -/
def foldComparison (unordered : Bool) (relation : Ordering → Bool) (arguments : List CoreExpression) :
    Option CoreExpression :=
  match floatingOperands arguments with
  | some (_, [left, right]) =>
      some (.coreLiteral (.coreBoolean (((compareFloating left right).map relation).getD unordered))
        boolType)
  | _ => none

def foldFloatingPrimitive (primitive : CorePrimitive) (arguments : List CoreExpression)
    (resultType : Ty) : Option CoreExpression :=
  match primitive with
  | .coreAdd => foldArithmetic addFloating arguments resultType
  | .coreSubtract => foldArithmetic subtractFloating arguments resultType
  | .coreMultiply => foldArithmetic multiplyFloating arguments resultType
  | .coreDivide => foldArithmetic divideFloating arguments resultType
  | .coreRemainder => foldArithmetic remainderFloating arguments resultType
  | .coreNegate => foldNegation arguments resultType
  | .coreFloorDivide => foldRoundedDivision arguments resultType
  | .coreLessThan => foldComparison false (· == .lt) arguments
  | .coreLessEqual => foldComparison false (· != .gt) arguments
  | .coreGreaterThan => foldComparison false (· == .gt) arguments
  | .coreGreaterEqual => foldComparison false (· != .lt) arguments
  | .coreEqual => foldComparison false (· == .eq) arguments
  | .coreNotEqual => foldComparison true (· != .eq) arguments
  | _ => none

/-- The truth of a floating literal used as a condition. -/
def floatingTruthValue (expression : CoreExpression) : Option Bool :=
  match formatFor (expressionType expression) with
  | none => none
  | some format =>
      (decodeFloating format expression).map fun value =>
        match value with
        | .notANumber => true
        | .infinity _ => true
        | .finite _ magnitude => magnitude ≠ 0

end Tala.Core.Optimizer.Floating
