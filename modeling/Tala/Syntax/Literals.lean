import Tala.Syntax.Source

/-!
# `Syntax.Literals` — spellings of numbers and characters

A number is consumed as one candidate and checked afterwards, so a malformed one is a single report. An
apostrophe separates two digits of a number; it also quotes a character.
-/

namespace Tala.Syntax

/-! ## Integers -/

inductive IntegerRadix
  | binaryRadix | decimalRadix | hexadecimalRadix
  deriving DecidableEq, Repr

structure ParsedInteger where
  parsedIntegerRadix : IntegerRadix
  parsedIntegerValue : Nat
  parsedIntegerDigits : SourceText

inductive IntegerLiteralError
  | missingDigits (radix : IntegerRadix)
  | unsupportedOctalPrefix
  | invalidDigit (radix : IntegerRadix) (character : Char)
  | separatorAtStart (radix : IntegerRadix)
  | separatorAtEnd (radix : IntegerRadix)
  | consecutiveSeparators (radix : IntegerRadix)
  | separatorTouchesInvalidDigit (radix : IntegerRadix)
  | integerLiteralContinuesWithIdentifier

open IntegerRadix IntegerLiteralError

def validDigit : IntegerRadix → Char → Bool
  | binaryRadix, character => character = '0' || character = '1'
  | decimalRadix, character => character.isDigit
  | hexadecimalRadix, character => isHexDigit character

def radixValue : IntegerRadix → Nat
  | binaryRadix => 2
  | decimalRadix => 10
  | hexadecimalRadix => 16

def accumulate (radix : IntegerRadix) (value : Nat) (digit : Char) : Nat :=
  value * radixValue radix + digitToInt digit

def startsWithSeparator (digits : SourceText) : Bool := digits.head? = some apostrophe

def endsWithSeparator (digits : SourceText) : Bool := startsWithSeparator digits.reverse

/-- Two apostrophes side by side. -/
def hasConsecutiveSeparators : SourceText → Bool
  | [] => false
  | character :: remaining =>
      (character = apostrophe && startsWithSeparator remaining) || hasConsecutiveSeparators remaining

/-- Every separator has a digit on either side. -/
def validateSeparatorNeighbors (radix : IntegerRadix) : SourceText → Except IntegerLiteralError Unit
  | left :: separator :: right :: remaining =>
      if separator = apostrophe then
        if validDigit radix left && validDigit radix right then
          validateSeparatorNeighbors radix (right :: remaining)
        else .error (separatorTouchesInvalidDigit radix)
      else validateSeparatorNeighbors radix (separator :: right :: remaining)
  | _ => .ok ()

section Validation

variable (classes : CharacterClasses)

def validateDigits (radix : IntegerRadix) : SourceText → Except IntegerLiteralError Unit
  | [] => .ok ()
  | character :: remaining =>
      if character = apostrophe then validateDigits radix remaining
      else if validDigit radix character then validateDigits radix remaining
      else if classes.isAlphaNum character || character = '_' then .error (invalidDigit radix character)
      else .error integerLiteralContinuesWithIdentifier

def parseDigits (radix : IntegerRadix) (digits : SourceText) : Except IntegerLiteralError ParsedInteger :=
  if digits.isEmpty then .error (missingDigits radix)
  else if startsWithSeparator digits then .error (separatorAtStart radix)
  else if endsWithSeparator digits then .error (separatorAtEnd radix)
  else if hasConsecutiveSeparators digits then .error (consecutiveSeparators radix)
  else do
    validateSeparatorNeighbors radix digits
    validateDigits classes radix digits
    let compact := digits.filter (· ≠ apostrophe)
    .ok ⟨radix, compact.foldl (accumulate radix) 0, compact⟩

/-- The spelling begins with zero and one of the two letters. -/
def hasPrefix (lower upper : Char) (spelling : SourceText) : Bool :=
  spelling.take 2 = ['0', lower] || spelling.take 2 = ['0', upper]

def parseIntegerSpelling (spelling : SourceText) : Except IntegerLiteralError ParsedInteger :=
  if hasPrefix 'o' 'O' spelling then .error unsupportedOctalPrefix
  else if hasPrefix 'x' 'X' spelling then parseDigits classes hexadecimalRadix (spelling.drop 2)
  else if hasPrefix 'b' 'B' spelling then parseDigits classes binaryRadix (spelling.drop 2)
  else parseDigits classes decimalRadix spelling

def radixName : IntegerRadix → String
  | binaryRadix => "binary"
  | decimalRadix => "decimal"
  | hexadecimalRadix => "hexadecimal"

def renderIntegerLiteralError : IntegerLiteralError → String
  | missingDigits radix => radixName radix ++ " literal requires at least one digit"
  | unsupportedOctalPrefix => "octal integer literals do not exist; use decimal, hexadecimal, or binary"
  | invalidDigit radix character =>
      classes.showCharacter character ++ " is not a valid " ++ radixName radix ++ " digit"
  | separatorAtStart radix => "apostrophe cannot begin the digits of a " ++ radixName radix ++ " literal"
  | separatorAtEnd radix => "apostrophe cannot end a " ++ radixName radix ++ " literal"
  | consecutiveSeparators radix =>
      "consecutive apostrophes are invalid in a " ++ radixName radix ++ " literal"
  | separatorTouchesInvalidDigit radix =>
      "apostrophe must appear between two valid " ++ radixName radix ++ " digits"
  | integerLiteralContinuesWithIdentifier => "integer literal cannot continue with identifier characters"

/-! ## Floating numbers -/

inductive FloatingLiteralError
  | missingFractionDigits
  | missingExponentDigits
  | separatorOutsideDigitPair
  | separatorInsideExponent
  | multipleDecimalPoints
  | multipleExponents
  | invalidFloatingCharacter (character : Char)
  | floatingSuffixNotSupported

open FloatingLiteralError

def isExponentMarker (character : Char) : Bool := character = 'e' || character = 'E'

/-- One source-shaped number; a sign belongs to it only right after an exponent marker. -/
def scanNumericCandidate (input : SourceText) : SourceText × SourceText :=
  go false input
where
  go (afterExponent : Bool) : SourceText → SourceText × SourceText
    | [] => ([], [])
    | character :: remaining =>
        if classes.isAlphaNum character || [apostrophe, '_', '.'].contains character then
          let (text, rest) := go (isExponentMarker character) remaining
          (character :: text, rest)
        else if afterExponent && ['+', '-'].contains character then
          let (text, rest) := go false remaining
          (character :: text, rest)
        else ([], character :: remaining)

theorem scanNumericCandidate_go_append (afterExponent : Bool) (input : SourceText) :
    (scanNumericCandidate.go classes afterExponent input).1
      ++ (scanNumericCandidate.go classes afterExponent input).2 = input := by
  fun_induction scanNumericCandidate.go classes afterExponent input with
  | case1 => rfl
  | case2 afterExponent character remaining _ text rest hgo ih => simp_all
  | case3 afterExponent character remaining _ _ text rest hgo ih => simp_all
  | case4 => rfl

/-- A number and what follows it make up the input. -/
theorem scanNumericCandidate_append (input : SourceText) :
    (scanNumericCandidate classes input).1 ++ (scanNumericCandidate classes input).2 = input :=
  scanNumericCandidate_go_append classes false input

theorem isAlphaNum_of_isDigit {classes : CharacterClasses} {character : Char} (h : character.isDigit = true) :
    classes.isAlphaNum character = true := by
  have hbounds : 48 ≤ character.toNat ∧ character.toNat ≤ 57 := Char.isDigit_iff_toNat.mp h
  rw [classes.isAlphaNum_ascii character (by omega), Char.isAlphanum, h, Bool.or_true]

/-- A candidate starts with the digit it was started for. -/
theorem scanNumericCandidate_cons {classes : CharacterClasses} {character : Char} {rest : SourceText}
    (h : character.isDigit = true) :
    ∃ text, (scanNumericCandidate classes (character :: rest)).1 = character :: text := by
  rw [scanNumericCandidate, scanNumericCandidate.go, isAlphaNum_of_isDigit h]
  exact ⟨_, rfl⟩

/-- A decimal point or an exponent marker, in a number without a radix. -/
def isFloatingCandidate (spelling : SourceText) : Bool :=
  if hasPrefix 'x' 'X' spelling || hasPrefix 'b' 'B' spelling || hasPrefix 'o' 'O' spelling then false
  else spelling.any fun character => character = '.' || isExponentMarker character

def validateCharacters : SourceText → Except FloatingLiteralError Unit
  | [] => .ok ()
  | character :: remaining =>
      if character.isDigit || [apostrophe, '.', 'e', 'E', '+', '-'].contains character then
        validateCharacters remaining
      else if classes.isAlphaNum character || character = '_' then .error floatingSuffixNotSupported
      else .error (invalidFloatingCharacter character)

def validateCounts (spelling : SourceText) : Except FloatingLiteralError Unit :=
  if (spelling.filter (· = '.')).length > 1 then .error multipleDecimalPoints
  else if (spelling.filter isExponentMarker).length > 1 then .error multipleExponents
  else .ok ()

/-- A separator stands between two digits of the mantissa. -/
def validateSeparators (inExponent : Bool) : SourceText → Except FloatingLiteralError Unit
  | [] => .ok ()
  | character :: remaining =>
      if isExponentMarker character then validateSeparators true remaining
      else if inExponent && character = apostrophe then .error separatorInsideExponent
      else
        match remaining with
        | separator :: right :: rest =>
            if inExponent = false ∧ separator = apostrophe then
              if character.isDigit && right.isDigit then validateSeparators false (right :: rest)
              else .error separatorOutsideDigitPair
            else if character = apostrophe then .error separatorOutsideDigitPair
            else validateSeparators inExponent (separator :: right :: rest)
        | remaining =>
            if character = apostrophe then .error separatorOutsideDigitPair
            else validateSeparators inExponent remaining

def normalizeFloatingSpelling (spelling : SourceText) : SourceText := spelling.filter (· ≠ apostrophe)

/-- Some characters, all of them digits. -/
def areDigits (text : SourceText) : Bool := !text.isEmpty && text.all Char.isDigit

def validateMantissa (mantissa : SourceText) : Except FloatingLiteralError Unit :=
  if !areDigits (mantissa.takeWhile (· ≠ '.')) then .error missingFractionDigits
  else
    match mantissa.dropWhile (· ≠ '.') with
    | [] => .ok ()
    | _ :: fractionPart => if areDigits fractionPart then .ok () else .error missingFractionDigits

def validateExponent : SourceText → Except FloatingLiteralError Unit
  | [] => .ok ()
  | _ :: remaining =>
      let digits := if remaining.head? = some '+' ∨ remaining.head? = some '-' then remaining.tail else remaining
      if areDigits digits then .ok () else .error missingExponentDigits

def validateStructure (spelling : SourceText) : Except FloatingLiteralError Unit := do
  let normalized := normalizeFloatingSpelling spelling
  validateMantissa (normalized.takeWhile fun character => !isExponentMarker character)
  validateExponent (normalized.dropWhile fun character => !isExponentMarker character)

def validateFloatingSpelling (spelling : SourceText) : Except FloatingLiteralError SourceText := do
  validateCharacters classes spelling
  validateCounts spelling
  validateSeparators false spelling
  validateStructure spelling
  .ok (normalizeFloatingSpelling spelling)

def renderFloatingLiteralError : FloatingLiteralError → String
  | missingFractionDigits => "floating-point literal requires digits on both sides of the decimal point"
  | missingExponentDigits => "floating-point exponent requires decimal digits"
  | separatorOutsideDigitPair =>
      "apostrophe must appear between two digits of the floating-point mantissa"
  | separatorInsideExponent => "apostrophe is not allowed in a floating-point exponent"
  | multipleDecimalPoints => "floating-point literal contains more than one decimal point"
  | multipleExponents => "floating-point literal contains more than one exponent marker"
  | invalidFloatingCharacter character =>
      classes.showCharacter character ++ " is not valid in a floating-point literal"
  | floatingSuffixNotSupported => "floating-point literal suffixes are not supported"

end Validation

/-! ## Characters -/

inductive CharacterScanError
  | unterminatedCharacterLiteral
  | physicalLineBreakInCharacterLiteral

open CharacterScanError

/-- Through the closing quote; a quote after a backslash does not close. -/
def scanCharacterBody (escaped : Bool) : SourceText → Except CharacterScanError (SourceText × SourceText)
  | [] => .error unterminatedCharacterLiteral
  | character :: rest =>
      if character = lineFeed || character = carriageReturn then .error physicalLineBreakInCharacterLiteral
      else if character = apostrophe && !escaped then .ok ([character], rest)
      else do
        let (text, remaining) ← scanCharacterBody (character = backslash && !escaped) rest
        .ok (character :: text, remaining)

/-- A character literal with both of its quotes, and what follows it. -/
def scanCharacterLiteral : SourceText → Except CharacterScanError (SourceText × SourceText)
  | [] => .error unterminatedCharacterLiteral
  | character :: rest =>
      if character = apostrophe then do
        let (text, remaining) ← scanCharacterBody false rest
        .ok (character :: text, remaining)
      else .error unterminatedCharacterLiteral

theorem scanCharacterBody_append {escaped : Bool} {input text remaining : SourceText}
    (h : scanCharacterBody escaped input = .ok (text, remaining)) : input = text ++ remaining := by
  induction input generalizing escaped text with
  | nil => cases h
  | cons character rest ih =>
      rw [scanCharacterBody] at h
      split at h
      · cases h
      · split at h
        · cases h
          rfl
        · cases hbody : scanCharacterBody (character = backslash && !escaped) rest with
          | error issue =>
              rw [hbody] at h
              cases h
          | ok parts =>
              rw [hbody] at h
              cases h
              rw [ih hbody]
              rfl

/-- A character literal and what follows it make up the input; the literal begins with its quote. -/
theorem scanCharacterLiteral_eq_ok {input text remaining : SourceText}
    (h : scanCharacterLiteral input = .ok (text, remaining)) :
    ∃ body, input = apostrophe :: (body ++ remaining) ∧ text = apostrophe :: body ∧
      scanCharacterBody false (body ++ remaining) = .ok (body, remaining) := by
  cases input with
  | nil => cases h
  | cons character rest =>
      rw [scanCharacterLiteral] at h
      split at h
      · next hquote =>
          subst hquote
          cases hbody : scanCharacterBody false rest with
          | error issue =>
              rw [hbody] at h
              cases h
          | ok parts =>
              rw [hbody] at h
              cases h
              have happend := scanCharacterBody_append hbody
              exact ⟨_, by rw [← happend], rfl, by rw [← happend, hbody]⟩
      · cases h

def renderCharacterLiteralError : CharacterScanError → String
  | unterminatedCharacterLiteral => "unterminated character literal"
  | physicalLineBreakInCharacterLiteral => "physical line break is not allowed in a character literal"

end Tala.Syntax
