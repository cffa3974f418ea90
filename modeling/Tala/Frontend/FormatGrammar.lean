import Mathlib.Data.List.Dedup
import Tala.Library.Codec
import Tala.Syntax.Source

/-!
# `Frontend.FormatGrammar` — the output formats of the console

A format is read once, when the program is compiled, into literal text and conversions. `parseFormat` is the
reader; `FormatItem` is a format as its grammar writes it, item by item. The reader accepts what the grammar
spells and nothing else, and its pieces are the items in their order.
-/

namespace Tala.Frontend.Console

open Tala.Syntax Tala.Library.Codec

/-! ## Pieces -/

/-- What a conversion writes. -/
inductive ConversionKind
  | signedDecimal | unsignedDecimal | hexadecimal | fixedPoint | text | character | truth
  deriving DecidableEq, Repr

inductive Flag
  | leftFlag | zeroFlag | plusFlag | spaceFlag | alternateFlag | groupFlag
  deriving DecidableEq, Repr

/-- A width or a precision: not written, a number of the format, or an argument in front of the value. -/
inductive Size
  | noSize
  | fixedSize (amount : Int)
  | argumentSize
  deriving DecidableEq, Repr

/-- A conversion with everything written in it, and the position of its `%`, counted from one. -/
structure Conversion where
  conversionKind : ConversionKind
  conversionFlags : List Flag
  conversionWidth : Size
  conversionPrecision : Size
  conversionOffset : Nat
  deriving DecidableEq, Repr

inductive FormatPiece
  | literalPiece (text : List Char)
  | conversionPiece (conversion : Conversion)
  | newlinePiece
  deriving DecidableEq, Repr

structure FormatProblem where
  formatProblemCode : String
  formatProblemOffset : Nat
  formatProblemMessage : String
  deriving DecidableEq, Repr

open Flag Size FormatPiece

def conversionLetter : ConversionKind → Char
  | .signedDecimal => 'd'
  | .unsignedDecimal => 'u'
  | .hexadecimal => 'x'
  | .fixedPoint => 'f'
  | .text => 's'
  | .character => 'c'
  | .truth => 'b'

/-- The bit of a flag in the `flags` argument of the runtime. -/
def flagBit : Flag → Int
  | leftFlag => 1
  | zeroFlag => 2
  | plusFlag => 4
  | spaceFlag => 8
  | alternateFlag => 16
  | groupFlag => 32

def flagHexadecimal : Int := 64

/-- The flags as the runtime takes them; `%x` is a flag of the integer conversions there. -/
def conversionFlagBits (conversion : Conversion) : Int :=
  (conversion.conversionFlags.map flagBit).sum
    + (if conversion.conversionKind = .hexadecimal then flagHexadecimal else 0)

/-- The value, and one more argument for each of a width and a precision written as `*`. -/
def conversionArgumentCount (conversion : Conversion) : Nat :=
  1 + ([conversion.conversionWidth, conversion.conversionPrecision].filter (· = argumentSize)).length

/-- The flags each conversion has a meaning for. -/
def allowedFlags : ConversionKind → List Flag
  | .signedDecimal => [leftFlag, zeroFlag, plusFlag, spaceFlag, groupFlag]
  | .unsignedDecimal => [leftFlag, zeroFlag, groupFlag]
  | .hexadecimal => [leftFlag, zeroFlag, alternateFlag]
  | .fixedPoint => [leftFlag, zeroFlag, plusFlag, spaceFlag, groupFlag]
  | .text => [leftFlag]
  | .character => [leftFlag]
  | .truth => [leftFlag]

def flagName : Flag → String
  | leftFlag => "-"
  | zeroFlag => "0"
  | plusFlag => "+"
  | spaceFlag => "space"
  | alternateFlag => "#"
  | groupFlag => String.singleton apostrophe

/-! ## The reader -/

section Reader

variable (offset : Nat)

def failure {α : Type} (code message : String) : Except FormatProblem α := .error ⟨code, offset, message⟩

def flagCharacters : List Char := ['-', '0', '+', ' ', '#', apostrophe]

def flagOf (character : Char) : Flag :=
  if character = '-' then leftFlag
  else if character = '0' then zeroFlag
  else if character = '+' then plusFlag
  else if character = ' ' then spaceFlag
  else if character = '#' then alternateFlag
  else groupFlag

/-- The value of decimal digits. -/
def decimalValue (digits : List Char) : Int :=
  (digits.foldl (fun total digit => total * 10 + digitToInt digit) 0 : Nat)

/-- A number, a star, or nothing; and what follows. -/
def sizeOfText (value : List Char) : Except FormatProblem (Size × List Char) :=
  if value.head? = some '*' then .ok (argumentSize, value.tail)
  else
    let digits := value.takeWhile Char.isDigit
    let rest := value.dropWhile Char.isDigit
    if digits = [] then .ok (noSize, rest)
    else if digits.length > 9 then
      failure offset "TAT0075" "a width or a precision written in a format has at most nine digits"
    else .ok (fixedSize (decimalValue digits), rest)

/-- The precision, if a point stands after the width. -/
def precisionOfText (afterWidth : List Char) : Except FormatProblem (Size × List Char) :=
  if afterWidth.head? = some '.' then
    match sizeOfText offset afterWidth.tail with
    | .error wrong => .error wrong
    | .ok (size, rest) =>
        if size = noSize then failure offset "TAT0075" "a precision needs a number or * after its point"
        else .ok (size, rest)
  else .ok (noSize, afterWidth)

def flagFailure {α : Type} (kind : ConversionKind) (message : String) : Except FormatProblem α :=
  failure offset "TAT0076" ("the conversion %" ++ String.singleton (conversionLetter kind) ++ " " ++ message)

/-- The flags and the precision are those the conversion takes. -/
def validated (value : Conversion) : Except FormatProblem Conversion :=
  let flags := value.conversionFlags
  let kind := value.conversionKind
  if ¬ flags.Nodup then flagFailure offset kind "repeats a flag"
  else if leftFlag ∈ flags ∧ zeroFlag ∈ flags then
    flagFailure offset kind "combines - and 0, which exclude each other"
  else if plusFlag ∈ flags ∧ spaceFlag ∈ flags then
    flagFailure offset kind "combines + and a space, which exclude each other"
  else
    match flags.filter fun flag => !(allowedFlags kind).contains flag with
    | unwanted :: _ => flagFailure offset kind ("takes no " ++ flagName unwanted ++ " flag")
    | [] =>
        if value.conversionPrecision ≠ noSize ∧ kind ∉ [ConversionKind.fixedPoint, .text] then
          flagFailure offset kind "takes no precision"
        else .ok value

def kinds : List (Char × ConversionKind) :=
  [('d', .signedDecimal), ('u', .unsignedDecimal), ('x', .hexadecimal), ('f', .fixedPoint), ('s', .text),
    ('c', .character), ('b', .truth)]

/-- The piece a letter ends, after its flags, width and precision. -/
def pieceOfLetter (letter : Char) (flags : List Flag) (width precision : Size) : Except FormatProblem FormatPiece :=
  let plain := flags = [] ∧ width = noSize ∧ precision = noSize
  if letter = '%' then
    if plain then .ok (literalPiece ['%']) else failure offset "TAT0076" "%% takes no flag, width or precision"
  else if letter = 'n' then
    if plain then .ok newlinePiece else failure offset "TAT0076" "%n takes no flag, width or precision"
  else
    match kinds.lookup letter with
    | some kind => (validated offset ⟨kind, flags, width, precision, offset⟩).map conversionPiece
    | none =>
        if letter ∈ ['A', 'O'] then
          failure offset "TAT0079"
            ("the conversion %" ++ String.singleton letter ++ " needs the object model and is not implemented yet")
        else failure offset "TAT0075" ("%" ++ String.singleton letter ++ " is not a conversion")

/-- What follows a `%`: the piece, and how many characters after the `%` belong to it. -/
def readConversion (value : List Char) : Except FormatProblem (FormatPiece × Nat) := do
  let flags := (value.takeWhile flagCharacters.contains).map flagOf
  let (width, afterWidth) ← sizeOfText offset (value.dropWhile flagCharacters.contains)
  let (precision, afterPrecision) ← precisionOfText offset afterWidth
  match afterPrecision with
  | [] => failure offset "TAT0075" "the format ends inside a conversion"
  | letter :: _ =>
      let piece ← pieceOfLetter offset letter flags width precision
      .ok (piece, value.length - afterPrecision.length + 1)

end Reader

def pieces (offset : Nat) (format : List Char) : Except FormatProblem (List FormatPiece) :=
  match format with
  | [] => .ok []
  | character :: rest =>
      if character = '%' then do
        let (piece, used) ← readConversion offset rest
        let later ← pieces (offset + 1 + used) (rest.drop used)
        .ok (piece :: later)
      else
        let literal := (character :: rest).takeWhile (· ≠ '%')
        do
        let later ← pieces (offset + literal.length) (rest.dropWhile (· ≠ '%'))
        .ok (literalPiece literal :: later)
termination_by format.length
decreasing_by
  · simp only [List.length_drop, List.length_cons]
    omega
  · exact Nat.lt_succ_of_le (List.length_dropWhile_le _ _)

/-- Literal text next to literal text is one piece. -/
def joined : List FormatPiece → List FormatPiece
  | [] => []
  | literalPiece first :: literalPiece second :: rest => joined (literalPiece (first ++ second) :: rest)
  | piece :: rest => piece :: joined rest
termination_by parts => parts.length

def parseFormat (format : List Char) : Except FormatProblem (List FormatPiece) := (pieces 1 format).map joined

/-! ## The grammar -/

/-- A width or a precision as it is written. -/
inductive WrittenSize
  | absent
  | number (digits : List Char)
  | star

/-- One item of a format as it is written. -/
inductive FormatItem
  | plain (character : Char)
  | percent
  | newline
  | conversion (flags : List Flag) (width precision : WrittenSize) (kind : ConversionKind)

def flagCharacter : Flag → Char
  | leftFlag => '-'
  | zeroFlag => '0'
  | plusFlag => '+'
  | spaceFlag => ' '
  | alternateFlag => '#'
  | groupFlag => apostrophe

namespace WrittenSize

def spelling : WrittenSize → List Char
  | absent => []
  | number digits => digits
  | star => ['*']

/-- A precision with its point. -/
def afterPoint : WrittenSize → List Char
  | absent => []
  | written => '.' :: written.spelling

def size : WrittenSize → Size
  | absent => noSize
  | number digits => fixedSize (decimalValue digits)
  | star => argumentSize

/-- A number is written with decimal digits. -/
def Documented : WrittenSize → Prop
  | number digits => digits ≠ [] ∧ ∀ digit ∈ digits, digit.isDigit = true
  | _ => True

/-- A number has at most nine digits. -/
def Short : WrittenSize → Prop
  | number digits => digits.length ≤ 9
  | _ => True

/-- A zero in front of a width is the flag. -/
def LeadsWithoutZero : WrittenSize → Prop
  | number digits => digits.head? ≠ some '0'
  | _ => True

end WrittenSize

/-- A conversion that its row of the grammar allows: no flag twice, none that excludes another, none it does
not take, and a precision only where it takes one. -/
structure Conversion.Allowed (conversion : Conversion) : Prop where
  once : conversion.conversionFlags.Nodup
  leftOrZero : ¬ (leftFlag ∈ conversion.conversionFlags ∧ zeroFlag ∈ conversion.conversionFlags)
  plusOrSpace : ¬ (plusFlag ∈ conversion.conversionFlags ∧ spaceFlag ∈ conversion.conversionFlags)
  taken : ∀ flag ∈ conversion.conversionFlags, flag ∈ allowedFlags conversion.conversionKind
  precision : conversion.conversionPrecision ≠ noSize → conversion.conversionKind ∈ [ConversionKind.fixedPoint, .text]

namespace FormatItem

def spelling : FormatItem → List Char
  | plain character => [character]
  | percent => ['%', '%']
  | newline => ['%', 'n']
  | conversion flags width precision kind =>
      '%' :: (flags.map flagCharacter ++ (width.spelling ++ (precision.afterPoint ++ [conversionLetter kind])))

/-- What the grammar of formats allows. -/
def Documented : FormatItem → Prop
  | plain character => character ≠ '%'
  | percent => True
  | newline => True
  | conversion flags width precision kind =>
      Conversion.Allowed ⟨kind, flags, width.size, precision.size, 0⟩ ∧ width.Documented ∧
        width.LeadsWithoutZero ∧ precision.Documented

/-- What the reader can read: numbers of at most nine digits. -/
def Short : FormatItem → Prop
  | conversion _ width precision _ => width.Short ∧ precision.Short
  | _ => True

end FormatItem

/-- One character of literal text, a line terminator, or a conversion. -/
inductive FormatAtom
  | character (value : Char)
  | lineEnd
  | conversion (value : Conversion)
  deriving DecidableEq, Repr

def FormatPiece.atoms : FormatPiece → List FormatAtom
  | literalPiece literal => literal.map .character
  | conversionPiece conversion => [.conversion conversion]
  | newlinePiece => [.lineEnd]

/-- An item at a position of the format. -/
def FormatItem.atom (offset : Nat) : FormatItem → FormatAtom
  | plain character => .character character
  | percent => .character '%'
  | newline => .lineEnd
  | conversion flags width precision kind => .conversion ⟨kind, flags, width.size, precision.size, offset⟩

def itemAtoms (offset : Nat) : List FormatItem → List FormatAtom
  | [] => []
  | item :: later => item.atom offset :: itemAtoms (offset + item.spelling.length) later

/-- The text of items. -/
def spelled (items : List FormatItem) : List Char := items.flatMap FormatItem.spelling

/-! ## What the parts of the reader read -/

section Parts

variable {offset : Nat} {value rest : List Char} {p : Char → Bool}

/-- A span of characters stops in front of the first other one. -/
theorem takeWhile_span {inside : List Char} (h : ∀ other ∈ inside, p other = true)
    (hrest : ∀ other, rest.head? = some other → p other = false) :
    (inside ++ rest).takeWhile p = inside ∧ (inside ++ rest).dropWhile p = rest := by
  have hstop : rest.takeWhile p = [] ∧ rest.dropWhile p = rest := by
    cases rest with
    | nil => exact ⟨rfl, rfl⟩
    | cons first more => simp [hrest first rfl]
  rw [List.takeWhile_append_of_pos h, List.dropWhile_append_of_pos h, hstop.1, hstop.2, List.append_nil]
  exact ⟨rfl, rfl⟩

theorem head?_dropWhile {other : Char} (h : (value.dropWhile p).head? = some other) : p other = false := by
  induction value with
  | nil => cases h
  | cons first more ih =>
      rw [List.dropWhile_cons] at h
      split at h
      · exact ih h
      · next hfirst =>
          cases h
          simpa using hfirst

/-- The spelling of a size is all of it: what follows is no part of it. -/
def WrittenSize.Ends : WrittenSize → List Char → Prop
  | .absent, rest => rest.head? ≠ some '*' ∧ ∀ other, rest.head? = some other → other.isDigit = false
  | .number _, rest => ∀ other, rest.head? = some other → other.isDigit = false
  | .star, _ => True

theorem sizeOfText_eq_ok {size : Size} (h : sizeOfText offset value = .ok (size, rest)) :
    ∃ written : WrittenSize, value = written.spelling ++ rest ∧ written.size = size ∧ written.Documented ∧
      written.Short ∧ written.Ends rest := by
  rw [sizeOfText] at h
  split at h
  · next hstar =>
      cases h
      cases value with
      | nil => cases hstar
      | cons first more =>
          refine ⟨.star, ?_, rfl, trivial, trivial, trivial⟩
          rw [Option.some.inj hstar]
          rfl
  · next hstar =>
      simp only at h
      have hsplit := List.takeWhile_append_dropWhile (p := Char.isDigit) (l := value)
      split at h
      · next hnone =>
          cases h
          rw [hnone, List.nil_append] at hsplit
          refine ⟨.absent, hsplit.symm, rfl, trivial, trivial, ?_, fun other => head?_dropWhile⟩
          rw [hsplit]
          exact hstar
      · next hsome =>
          split at h
          · cases h
          · next hshort =>
              cases h
              exact ⟨.number _, hsplit.symm, rfl, ⟨hsome, fun other => List.mem_takeWhile_imp⟩,
                Nat.le_of_not_lt hshort, fun other => head?_dropWhile⟩

variable {written : WrittenSize}

theorem sizeOfText_spelling (hdocumented : written.Documented) (hshort : written.Short)
    (hends : written.Ends rest) : sizeOfText offset (written.spelling ++ rest) = .ok (written.size, rest) := by
  cases written with
  | absent =>
      obtain ⟨hstar, hdigit⟩ := hends
      obtain ⟨htake, hdrop⟩ := @takeWhile_span rest Char.isDigit [] nofun hdigit
      rw [List.nil_append] at htake hdrop
      simp only [WrittenSize.spelling, List.nil_append]
      rw [sizeOfText, if_neg hstar]
      simp only [htake, hdrop, if_true, WrittenSize.size]
  | number digits =>
      obtain ⟨hsome, hdigits⟩ := hdocumented
      obtain ⟨htake, hdrop⟩ := takeWhile_span (p := Char.isDigit) hdigits hends
      have hstar : (digits ++ rest).head? ≠ some '*' := by
        cases digits with
        | nil => exact absurd rfl hsome
        | cons first more =>
            intro hhead
            have hfirst := hdigits first (by simp)
            rw [Option.some.inj hhead] at hfirst
            cases hfirst
      have hnine : ¬ digits.length > 9 := Nat.not_lt_of_le hshort
      simp only [WrittenSize.spelling]
      rw [sizeOfText, if_neg hstar]
      simp only [htake, hdrop, if_neg hsome, if_neg hnine, WrittenSize.size]
  | star => rfl

/-- A precision that is not written ends in front of anything but a point. -/
def WrittenSize.EndsPrecision : WrittenSize → List Char → Prop
  | .absent, rest => rest.head? ≠ some '.'
  | written, rest => written.Ends rest

theorem size_eq_noSize : written.size = noSize ↔ written = .absent := by
  cases written <;> simp [WrittenSize.size]

theorem precisionOfText_eq_ok {size : Size} (h : precisionOfText offset value = .ok (size, rest)) :
    ∃ written : WrittenSize, value = written.afterPoint ++ rest ∧ written.size = size ∧ written.Documented ∧
      written.Short ∧ written.EndsPrecision rest := by
  rw [precisionOfText] at h
  split at h
  · next hpoint =>
      split at h
      · cases h
      · next found after hsize =>
          split at h
          · cases h
          · next hsome =>
              cases h
              obtain ⟨written, htail, hwritten, hdocumented, hshort, hends⟩ := sizeOfText_eq_ok hsize
              have hpresent : written ≠ .absent := by
                rintro rfl
                exact hsome hwritten.symm
              cases value with
              | nil => cases hpoint
              | cons first more =>
                  have hvalue : first :: more = '.' :: (written.spelling ++ rest) := by
                    rw [Option.some.inj hpoint, ← htail]
                    rfl
                  cases written with
                  | absent => exact absurd rfl hpresent
                  | number digits => exact ⟨.number digits, hvalue, hwritten, hdocumented, hshort, hends⟩
                  | star => exact ⟨.star, hvalue, hwritten, hdocumented, hshort, hends⟩
  · next hpoint =>
      cases h
      exact ⟨.absent, rfl, rfl, trivial, trivial, hpoint⟩

theorem precisionOfText_spelling (hdocumented : written.Documented)
    (hshort : written.Short) (hends : written.EndsPrecision rest) :
    precisionOfText offset (written.afterPoint ++ rest) = .ok (written.size, rest) := by
  have hwritten : ∀ {written : WrittenSize}, written ≠ .absent → written.Documented → written.Short →
      written.Ends rest →
      precisionOfText offset ('.' :: (written.spelling ++ rest)) = .ok (written.size, rest) := by
    intro written hpresent hdocumented hshort hends
    have hsize : sizeOfText offset _ = .ok _ := sizeOfText_spelling hdocumented hshort hends
    have hsome : written.size ≠ noSize := fun hnone => hpresent (size_eq_noSize.mp hnone)
    have hpoint : ('.' :: (written.spelling ++ rest)).head? = some '.' := rfl
    rw [precisionOfText, if_pos hpoint, List.tail_cons, hsize]
    simp only [if_neg hsome]
  cases written with
  | absent => exact if_neg hends
  | number digits => exact hwritten nofun hdocumented hshort hends
  | star => exact hwritten nofun hdocumented hshort hends

theorem validated_eq_ok {conversion checked : Conversion} :
    validated offset conversion = .ok checked ↔ checked = conversion ∧ conversion.Allowed := by
  have hunwanted : (conversion.conversionFlags.filter fun flag =>
      !(allowedFlags conversion.conversionKind).contains flag) = [] ↔
      ∀ flag ∈ conversion.conversionFlags, flag ∈ allowedFlags conversion.conversionKind := by
    rw [List.filter_eq_nil_iff]
    simp
  have hallowed : conversion.Allowed ↔ conversion.conversionFlags.Nodup ∧
      ¬ (leftFlag ∈ conversion.conversionFlags ∧ zeroFlag ∈ conversion.conversionFlags) ∧
      ¬ (plusFlag ∈ conversion.conversionFlags ∧ spaceFlag ∈ conversion.conversionFlags) ∧
      (∀ flag ∈ conversion.conversionFlags, flag ∈ allowedFlags conversion.conversionKind) ∧
      ¬ (conversion.conversionPrecision ≠ noSize ∧
        conversion.conversionKind ∉ [ConversionKind.fixedPoint, .text]) := by
    constructor
    · intro h
      exact ⟨h.once, h.leftOrZero, h.plusOrSpace, h.taken, fun hboth => hboth.2 (h.precision hboth.1)⟩
    · rintro ⟨honce, hleft, hplus, htaken, hprecision⟩
      exact ⟨honce, hleft, hplus, htaken, fun hsome => by_contra fun hnot => hprecision ⟨hsome, hnot⟩⟩
  rw [hallowed, ← hunwanted, validated]
  simp only [flagFailure, failure]
  split
  · next honce => exact ⟨nofun, fun h => absurd h.2.1 honce⟩
  · next honce =>
      split
      · next hleft => exact ⟨nofun, fun h => absurd hleft h.2.2.1⟩
      · next hleft =>
          split
          · next hplus => exact ⟨nofun, fun h => absurd hplus h.2.2.2.1⟩
          · next hplus =>
              split
              · next unwanted more hfilter =>
                  refine ⟨nofun, ?_⟩
                  rintro ⟨-, -, -, -, hnone, -⟩
                  rw [hfilter] at hnone
                  cases hnone
              · next hfilter =>
                  split
                  · next hprecision => exact ⟨nofun, fun h => absurd hprecision h.2.2.2.2.2⟩
                  · next hprecision =>
                      rw [Except.ok.injEq]
                      exact ⟨fun h => ⟨h.symm, not_not.mp honce, hleft, hplus, hfilter, hprecision⟩,
                        fun h => h.1.symm⟩

end Parts

/-! ## What one conversion reads -/

section Conversions

variable {offset : Nat} {value rest : List Char} {letter : Char} {flags : List Flag} {width precision : Size}
  {piece : FormatPiece}

theorem flagOf_flagCharacter (flag : Flag) : flagOf (flagCharacter flag) = flag := by cases flag <;> rfl

theorem flagCharacter_mem (flag : Flag) : flagCharacters.contains (flagCharacter flag) = true := by
  cases flag <;> rfl

variable {character : Char} {kind : ConversionKind}

theorem flagCharacter_flagOf (h : flagCharacters.contains character = true) :
    flagCharacter (flagOf character) = character := by
  simp only [flagCharacters, List.contains_iff_mem, List.mem_cons, List.not_mem_nil, or_false] at h
  rcases h with rfl | rfl | rfl | rfl | rfl | rfl <;> rfl

theorem flags_spelled {text : List Char} (h : ∀ character ∈ text, flagCharacters.contains character = true) :
    (text.map flagOf).map flagCharacter = text := by
  rw [List.map_map]
  have hmap := List.map_congr_left (g := id) fun character hmem => flagCharacter_flagOf (h character hmem)
  rw [List.map_id] at hmap
  exact hmap

theorem kinds_lookup : kinds.lookup letter = some kind ↔ letter = conversionLetter kind := by
  constructor
  · intro h
    have hmem : (letter, kind) ∈ kinds := by
      obtain ⟨before, after, hsplit, -⟩ := List.lookup_eq_some_iff.mp h
      rw [hsplit]
      simp
    simp only [kinds, List.mem_cons, Prod.mk.injEq, List.not_mem_nil, or_false] at hmem
    rcases hmem with ⟨rfl, rfl⟩ | ⟨rfl, rfl⟩ | ⟨rfl, rfl⟩ | ⟨rfl, rfl⟩ | ⟨rfl, rfl⟩ | ⟨rfl, rfl⟩ | ⟨rfl, rfl⟩ <;> rfl
  · rintro rfl
    cases kind <;> rfl

/-- Where a conversion stands does not decide whether it is allowed. -/
theorem Conversion.Allowed.moved {conversion : Conversion} (h : conversion.Allowed) (offset : Nat) :
    Conversion.Allowed { conversion with conversionOffset := offset } :=
  ⟨h.once, h.leftOrZero, h.plusOrSpace, h.taken, h.precision⟩

theorem pieceOfLetter_eq_ok (h : pieceOfLetter offset letter flags width precision = .ok piece) :
    ((flags = [] ∧ width = noSize ∧ precision = noSize) ∧
        (letter = '%' ∧ piece = literalPiece ['%'] ∨ letter = 'n' ∧ piece = newlinePiece)) ∨
      ∃ kind, letter = conversionLetter kind ∧ Conversion.Allowed ⟨kind, flags, width, precision, offset⟩ ∧
        piece = conversionPiece ⟨kind, flags, width, precision, offset⟩ := by
  rw [pieceOfLetter] at h
  split at h
  · next hpercent =>
      split at h
      · next hplain =>
          cases h
          exact Or.inl ⟨hplain, Or.inl ⟨hpercent, rfl⟩⟩
      · cases h
  · split at h
    · next hnewline =>
        split at h
        · next hplain =>
            cases h
            exact Or.inl ⟨hplain, Or.inr ⟨hnewline, rfl⟩⟩
        · cases h
    · split at h
      · next kind hkind =>
          cases hchecked : validated offset ⟨kind, flags, width, precision, offset⟩ with
          | error wrong =>
              rw [hchecked] at h
              cases h
          | ok checked =>
              obtain ⟨rfl, hallowed⟩ := validated_eq_ok.mp hchecked
              rw [hchecked] at h
              cases h
              exact Or.inr ⟨kind, kinds_lookup.mp hkind, hallowed, rfl⟩
      · split at h <;> cases h

/-- The item a conversion reads, with what is left. -/
theorem readConversion_eq_ok {used : Nat} (h : readConversion offset value = .ok (piece, used)) :
    ∃ item : FormatItem, item.Documented ∧ item.Short ∧ '%' :: value = item.spelling ++ value.drop used ∧
      item.spelling.length = 1 + used ∧ piece.atoms = [item.atom offset] := by
  obtain ⟨⟨width, afterWidth⟩, hwidth, h⟩ := bind_eq_ok.mp h
  obtain ⟨⟨precision, afterPrecision⟩, hprecision, h⟩ := bind_eq_ok.mp h
  obtain ⟨written, hwritten, rfl, hdocumented, hshort, -⟩ := sizeOfText_eq_ok hwidth
  obtain ⟨written', hwritten', rfl, hdocumented', hshort', -⟩ := precisionOfText_eq_ok hprecision
  cases afterPrecision with
  | nil => cases h
  | cons letter rest =>
      obtain ⟨found, hfound, h⟩ := bind_eq_ok.mp h
      cases h
      -- the text, cut where the reader cut it
      have hflags := @flags_spelled (value.takeWhile flagCharacters.contains)
        fun character hmem => List.mem_takeWhile_imp hmem
      have hsplit := List.takeWhile_append_dropWhile (p := flagCharacters.contains) (l := value)
      rw [hwritten, hwritten'] at hsplit
      have hzero : written.LeadsWithoutZero := by
        cases written with
        | number digits =>
            intro hhead
            have hdrop : (value.dropWhile flagCharacters.contains).head? = some '0' := by
              rw [hwritten]
              cases digits with
              | nil => cases hhead
              | cons first more => exact hhead
            exact absurd (head?_dropWhile hdrop) (by decide)
        | _ => trivial
      generalize value.takeWhile flagCharacters.contains = flagText at hsplit hflags hfound
      have hlength := congrArg List.length hsplit
      simp only [List.length_append, List.length_cons] at hlength
      have hused : value.length - (letter :: rest).length + 1
          = (flagText ++ (written.spelling ++ (written'.afterPoint ++ [letter]))).length := by
        simp only [List.length_append, List.length_cons, List.length_nil]
        omega
      have hvalue : value = (flagText ++ (written.spelling ++ (written'.afterPoint ++ [letter]))) ++ rest := by
        rw [← hsplit]
        simp
      have hdrop : value.drop (value.length - (letter :: rest).length + 1) = rest := by
        rw [hused]
        conv_lhs => rw [hvalue]
        exact List.drop_left
      rw [hdrop, hused]
      have hplain : (flagText.map flagOf = [] ∧ written.size = noSize ∧ written'.size = noSize) →
          flagText = [] ∧ written = .absent ∧ written' = .absent := by
        rintro ⟨hnone, hnoWidth, hnoPrecision⟩
        exact ⟨List.map_eq_nil_iff.mp hnone, size_eq_noSize.mp hnoWidth, size_eq_noSize.mp hnoPrecision⟩
      rcases pieceOfLetter_eq_ok hfound with ⟨hnone, ⟨rfl, rfl⟩ | ⟨rfl, rfl⟩⟩ | ⟨kind, rfl, hallowed, rfl⟩
      · obtain ⟨rfl, rfl, rfl⟩ := hplain hnone
        exact ⟨.percent, trivial, trivial, congrArg _ hvalue, rfl, rfl⟩
      · obtain ⟨rfl, rfl, rfl⟩ := hplain hnone
        exact ⟨.newline, trivial, trivial, congrArg _ hvalue, rfl, rfl⟩
      · refine ⟨.conversion (flagText.map flagOf) written written' kind,
          ⟨hallowed.moved 0, hdocumented, hzero, hdocumented'⟩, ⟨hshort, hshort'⟩, ?_, ?_, rfl⟩
        · rw [FormatItem.spelling, hflags, List.cons_append]
          exact congrArg _ hvalue
        · rw [FormatItem.spelling, hflags, List.length_cons, Nat.add_comm]

/-- What may end a conversion is no flag, no digit, no star and no point. -/
theorem letter_apart (h : letter = '%' ∨ letter = 'n' ∨ letter = conversionLetter kind) :
    flagCharacters.contains letter = false ∧ letter.isDigit = false ∧ letter ≠ '*' ∧ letter ≠ '.' := by
  have hkinds : ∀ kind, flagCharacters.contains (conversionLetter kind) = false ∧
      (conversionLetter kind).isDigit = false ∧ conversionLetter kind ≠ '*' ∧ conversionLetter kind ≠ '.' := by
    intro kind
    cases kind <;> decide
  rcases h with rfl | rfl | rfl
  · decide
  · decide
  · exact hkinds kind

theorem digit_not_flag {digit : Char} (h : digit.isDigit = true) (hzero : digit ≠ '0') :
    flagCharacters.contains digit = false := by
  by_contra hflag
  have hcontains : flagCharacters.contains digit = true := by simpa using hflag
  simp only [flagCharacters, List.contains_iff_mem, List.mem_cons, List.not_mem_nil, or_false] at hcontains
  rcases hcontains with rfl | rfl | rfl | rfl | rfl | rfl
  · cases h
  · exact hzero rfl
  · cases h
  · cases h
  · cases h
  · cases h

/-- The reader takes a spelling apart into what it spells. -/
theorem readConversion_spelling {kind : ConversionKind} {written written' : WrittenSize}
    (hletter : letter = '%' ∨ letter = 'n' ∨ letter = conversionLetter kind)
    (hwidth : written.Documented ∧ written.Short ∧ written.LeadsWithoutZero)
    (hprecision : written'.Documented ∧ written'.Short)
    (hpiece : pieceOfLetter offset letter flags written.size written'.size = .ok piece) :
    readConversion offset (flags.map flagCharacter ++ (written.spelling ++ (written'.afterPoint ++ letter :: rest)))
      = .ok (piece, (flags.map flagCharacter ++ (written.spelling ++ (written'.afterPoint ++ [letter]))).length) := by
  obtain ⟨hflag, hdigit, hstar, hpoint⟩ := letter_apart hletter
  have hends' : written'.EndsPrecision (letter :: rest) := by
    cases written' with
    | absent => exact fun hhead => hpoint (Option.some.inj hhead)
    | number digits =>
        intro other hother
        cases hother
        exact hdigit
    | star => trivial
  have hafter : ∀ other, (written'.afterPoint ++ letter :: rest).head? = some other →
      other = '.' ∨ other = letter := by
    intro other hother
    cases written' with
    | absent => exact Or.inr (Option.some.inj hother).symm
    | number digits => exact Or.inl (Option.some.inj hother).symm
    | star => exact Or.inl (Option.some.inj hother).symm
  have hends : written.Ends (written'.afterPoint ++ letter :: rest) := by
    have hplain : ∀ other, (written'.afterPoint ++ letter :: rest).head? = some other →
        other.isDigit = false := by
      intro other hother
      rcases hafter other hother with rfl | rfl
      · rfl
      · exact hdigit
    cases written with
    | absent =>
        refine ⟨fun hhead => ?_, hplain⟩
        rcases hafter '*' hhead with hother | hother
        · exact absurd hother (by decide)
        · exact hstar hother.symm
    | number digits => exact hplain
    | star => trivial
  have hstop : ∀ other, (written.spelling ++ (written'.afterPoint ++ letter :: rest)).head? = some other →
      flagCharacters.contains other = false := by
    intro other hother
    cases written with
    | absent =>
        rcases hafter other hother with rfl | rfl
        · rfl
        · exact hflag
    | number digits =>
        cases digits with
        | nil => exact absurd rfl hwidth.1.1
        | cons first more =>
            cases hother
            exact digit_not_flag (hwidth.1.2 other (by simp)) fun heq => hwidth.2.2 (congrArg some heq)
    | star =>
        cases hother
        rfl
  have hflags : ∀ other ∈ flags.map flagCharacter, flagCharacters.contains other = true := by
    intro other hmem
    obtain ⟨flag, -, rfl⟩ := List.mem_map.mp hmem
    exact flagCharacter_mem flag
  obtain ⟨htake, hdrop⟩ := takeWhile_span hflags hstop
  have hback : (flags.map flagCharacter).map flagOf = flags := by
    rw [List.map_map]
    have hmap := List.map_congr_left (g := id) fun flag (_ : flag ∈ flags) => flagOf_flagCharacter flag
    rw [List.map_id] at hmap
    exact hmap
  have hsize : sizeOfText offset _ = .ok _ := sizeOfText_spelling hwidth.1 hwidth.2.1 hends
  have hsize' : precisionOfText offset _ = .ok _ := precisionOfText_spelling hprecision.1 hprecision.2 hends'
  rw [readConversion, htake, hdrop, hback, hsize]
  simp only [bind, Except.bind, hsize', hpiece, Except.ok.injEq, Prod.mk.injEq, true_and, List.length_append,
    List.length_cons, List.length_nil]
  omega

end Conversions

/-! ## Whole formats -/

section Formats

variable {offset : Nat} {format rest : List Char} {parts : List FormatPiece} {items : List FormatItem}

def atomsOf (parts : List FormatPiece) : List FormatAtom := parts.flatMap FormatPiece.atoms

theorem itemAtoms_plain (literal : List Char) (items : List FormatItem) :
    itemAtoms offset (literal.map .plain ++ items)
      = literal.map .character ++ itemAtoms (offset + literal.length) items := by
  induction literal generalizing offset with
  | nil => rfl
  | cons first more ih =>
      simp only [List.map_cons, List.cons_append, itemAtoms, FormatItem.atom, FormatItem.spelling, List.length_cons,
        List.length_nil]
      rw [ih, Nat.add_assoc, Nat.add_comm (0 + 1)]

theorem spelled_plain (literal : List Char) : spelled (literal.map .plain) = literal := by
  induction literal with
  | nil => rfl
  | cons first more ih =>
      rw [List.map_cons, spelled, List.flatMap_cons]
      exact congrArg (first :: ·) ih

theorem spelled_append (first second : List FormatItem) :
    spelled (first ++ second) = spelled first ++ spelled second := List.flatMap_append

theorem atomsOf_joined (parts : List FormatPiece) : atomsOf (joined parts) = atomsOf parts := by
  fun_induction joined parts with
  | case1 => rfl
  | case2 first second rest ih =>
      rw [ih]
      simp [atomsOf, FormatPiece.atoms]
  | case3 piece rest _ ih =>
      rw [atomsOf, List.flatMap_cons, atomsOf, List.flatMap_cons]
      exact congrArg _ ih

/-- **What the reader accepts is spelled by items of the grammar, and its pieces are these items.** -/
theorem pieces_eq_ok (h : pieces offset format = .ok parts) :
    ∃ items : List FormatItem, (∀ item ∈ items, item.Documented ∧ item.Short) ∧ spelled items = format ∧
      atomsOf parts = itemAtoms offset items := by
  fun_induction pieces offset format generalizing parts with
  | case1 =>
      cases h
      exact ⟨[], nofun, rfl, rfl⟩
  | case2 offset rest ih =>
      obtain ⟨⟨piece, used⟩, hpiece, h⟩ := bind_eq_ok.mp h
      obtain ⟨later, hlater, h⟩ := bind_eq_ok.mp h
      cases h
      obtain ⟨item, hdocumented, hshort, htext, hlength, hatoms⟩ := readConversion_eq_ok hpiece
      obtain ⟨items, hitems, hspelled, hrest⟩ := ih used hlater
      refine ⟨item :: items, ?_, ?_, ?_⟩
      · intro other hmem
        rcases List.mem_cons.mp hmem with rfl | hother
        · exact ⟨hdocumented, hshort⟩
        · exact hitems other hother
      · rw [htext, spelled, List.flatMap_cons]
        exact congrArg _ hspelled
      · rw [atomsOf, List.flatMap_cons, hatoms, itemAtoms, hlength, ← Nat.add_assoc]
        exact congrArg _ hrest
  | case3 offset character rest hplain literal =>
      rename_i ih
      obtain ⟨later, hlater, h⟩ := bind_eq_ok.mp h
      cases h
      obtain ⟨items, hitems, hspelled, hrest⟩ := ih hlater
      have hliteral : ∀ other ∈ (character :: rest).takeWhile (· ≠ '%'), other ≠ '%' := by
        intro other hmem
        simpa using List.mem_takeWhile_imp hmem
      refine ⟨((character :: rest).takeWhile (· ≠ '%')).map .plain ++ items, ?_, ?_, ?_⟩
      · intro other hmem
        rcases List.mem_append.mp hmem with hother | hother
        · obtain ⟨character, hcharacter, rfl⟩ := List.mem_map.mp hother
          exact ⟨hliteral character hcharacter, trivial⟩
        · exact hitems other hother
      · have hdrop : (character :: rest).dropWhile (· ≠ '%') = rest.dropWhile (· ≠ '%') := by
          rw [List.dropWhile_cons, if_pos (by simpa using hplain)]
        rw [spelled_append, spelled_plain, hspelled, ← hdrop]
        exact List.takeWhile_append_dropWhile
      · rw [itemAtoms_plain, ← hrest]
        rfl

/-- A character of literal text in front of what the reader accepts. -/
theorem pieces_plain {character : Char} (hplain : character ≠ '%')
    (h : ∃ parts, pieces (offset + 1) format = .ok parts) :
    ∃ parts, pieces offset (character :: format) = .ok parts := by
  have hlater : ∃ later, pieces (offset + ((character :: format).takeWhile (· ≠ '%')).length)
      (format.dropWhile (· ≠ '%')) = .ok later := by
    obtain ⟨parts, hparts⟩ := h
    rw [List.takeWhile_cons, if_pos (by simpa using hplain), List.length_cons]
    cases format with
    | nil => exact ⟨parts, hparts⟩
    | cons first more =>
        by_cases hpercent : first = '%'
        · simp only [hpercent, List.takeWhile_cons, List.dropWhile_cons, ne_eq, not_true_eq_false, decide_false,
            Bool.false_eq_true, if_false, List.length_nil]
          rw [← hpercent]
          exact ⟨parts, hparts⟩
        · rw [pieces, if_neg hpercent] at hparts
          obtain ⟨later, hlater, -⟩ := bind_eq_ok.mp hparts
          rw [List.dropWhile_cons, if_pos (by simpa using hpercent)]
          exact ⟨later, by rw [Nat.add_comm _ 1, ← Nat.add_assoc]; exact hlater⟩
  obtain ⟨later, hlater⟩ := hlater
  exact ⟨_, by rw [pieces, if_neg hplain]; exact bind_eq_ok.mpr ⟨later, hlater, rfl⟩⟩

/-- The reader of conversions accepts every item that is one. -/
theorem readConversion_item {item : FormatItem} (hdocumented : item.Documented) (hshort : item.Short)
    (hitem : ∀ character, item ≠ .plain character) :
    ∃ text piece, item.spelling = '%' :: text ∧ readConversion offset (text ++ rest) = .ok (piece, text.length) := by
  cases item with
  | plain character => exact absurd rfl (hitem character)
  | percent =>
      exact ⟨['%'], literalPiece ['%'], rfl, @readConversion_spelling offset rest '%' [] _ .truth .absent .absent
        (Or.inl rfl) ⟨trivial, trivial, trivial⟩ ⟨trivial, trivial⟩ rfl⟩
  | newline =>
      exact ⟨['n'], newlinePiece, rfl, @readConversion_spelling offset rest 'n' [] _ .truth .absent .absent
        (Or.inr (Or.inl rfl)) ⟨trivial, trivial, trivial⟩ ⟨trivial, trivial⟩ rfl⟩
  | conversion flags width precision kind =>
      obtain ⟨hallowed, hwidth, hzero, hprecision⟩ := hdocumented
      have hletter : conversionLetter kind ≠ '%' ∧ conversionLetter kind ≠ 'n' := by cases kind <;> decide
      have hpiece : pieceOfLetter offset (conversionLetter kind) flags width.size precision.size
          = .ok (.conversionPiece ⟨kind, flags, width.size, precision.size, offset⟩) := by
        have hvalidated := (@validated_eq_ok offset _ _).mpr ⟨rfl, hallowed.moved offset⟩
        simp only [pieceOfLetter, if_neg hletter.1, if_neg hletter.2, kinds_lookup.mpr rfl]
        exact congrArg (Except.map FormatPiece.conversionPiece) hvalidated
      have hread := @readConversion_spelling offset rest _ flags _ kind width precision (Or.inr (Or.inr rfl))
        ⟨hwidth, hshort.1, hzero⟩ ⟨hprecision, hshort.2⟩ hpiece
      refine ⟨_, .conversionPiece ⟨kind, flags, width.size, precision.size, offset⟩, rfl, ?_⟩
      simpa using hread

/-- **The reader accepts what the grammar spells.** -/
theorem pieces_spelled (h : ∀ item ∈ items, item.Documented ∧ item.Short) :
    ∃ parts, pieces offset (spelled items) = .ok parts := by
  induction items generalizing offset with
  | nil => exact ⟨[], by rw [spelled, List.flatMap_nil, pieces]⟩
  | cons item later ih =>
      have hlater : ∀ {offset}, ∃ parts, pieces offset (spelled later) = .ok parts :=
        ih fun other hmem => h other (List.mem_cons_of_mem _ hmem)
      obtain ⟨hdocumented, hshort⟩ := h item (by simp)
      rw [spelled, List.flatMap_cons]
      by_cases hplain : ∃ character, item = .plain character
      · obtain ⟨character, rfl⟩ := hplain
        exact pieces_plain hdocumented hlater
      · obtain ⟨text, piece, hspelling, hread⟩ :=
          @readConversion_item offset (spelled later) item hdocumented hshort
            fun character heq => hplain ⟨character, heq⟩
        obtain ⟨parts, hparts⟩ := @hlater (offset + 1 + text.length)
        refine ⟨piece :: parts, ?_⟩
        rw [hspelling, List.cons_append, pieces, if_pos rfl]
        refine bind_eq_ok.mpr ⟨_, hread, bind_eq_ok.mpr ⟨parts, ?_, rfl⟩⟩
        rw [List.drop_left]
        exact hparts

/-- **Formats.** The reader accepts exactly what the grammar spells, and its pieces are the items of a spelling:
every character in one of them, in order, and each conversion at its place. -/
theorem parseFormat_reads (format : List Char) :
    ((∃ parts, parseFormat format = .ok parts) ↔
        ∃ items : List FormatItem, (∀ item ∈ items, item.Documented ∧ item.Short) ∧ spelled items = format) ∧
      ∀ parts, parseFormat format = .ok parts →
        ∃ items : List FormatItem, (∀ item ∈ items, item.Documented ∧ item.Short) ∧ spelled items = format ∧
          atomsOf parts = itemAtoms 1 items := by
  have hread : ∀ parts, parseFormat format = .ok parts →
      ∃ items : List FormatItem, (∀ item ∈ items, item.Documented ∧ item.Short) ∧ spelled items = format ∧
        atomsOf parts = itemAtoms 1 items := by
    intro parts hparse
    rw [parseFormat] at hparse
    cases hpieces : pieces 1 format with
    | error wrong =>
        rw [hpieces] at hparse
        cases hparse
    | ok found =>
        rw [hpieces] at hparse
        cases hparse
        obtain ⟨items, hitems, hspelled, hatoms⟩ := pieces_eq_ok hpieces
        exact ⟨items, hitems, hspelled, by rw [atomsOf_joined]; exact hatoms⟩
  refine ⟨⟨?_, ?_⟩, hread⟩
  · rintro ⟨parts, hparse⟩
    obtain ⟨items, hitems, hspelled, -⟩ := hread parts hparse
    exact ⟨items, hitems, hspelled⟩
  · rintro ⟨items, hitems, rfl⟩
    obtain ⟨parts, hparts⟩ := @pieces_spelled 1 items hitems
    exact ⟨joined parts, by rw [parseFormat, hparts]; rfl⟩

end Formats

end Tala.Frontend.Console
