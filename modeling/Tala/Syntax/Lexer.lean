import Tala.Syntax.Literals

/-!
# `Syntax.Lexer` — the scanner of the parser

Tokens carry decoded payloads; spaces and comments are dropped. One round of the scanner is `lexRound`: what
it consumes, where the next round goes on. `lexRounds` keeps every round with its positions, and `lexTala`
keeps their tokens.
-/

namespace Tala.Syntax

inductive TokenKind
  | identifierToken | keywordToken | symbolToken | integerToken | floatingToken | characterToken | stringToken
  | endOfFileToken
  deriving DecidableEq, Repr

structure Token where
  tokenKind : TokenKind
  tokenText : SourceText
  tokenSpan : SourceSpan
  deriving DecidableEq, Repr

open TokenKind

structure LexerInput where
  lexerSourceFile : String
  lexerSourceText : SourceText

namespace Lexer

def keywords : List String :=
  ["and", "auto", "bool", "break", "byte", "char", "class", "continue", "do", "for", "else", "enum", "false",
    "final", "guard", "if", "int", "internal", "is", "long", "longint", "match", "namespace", "null", "not",
    "or", "private", "protected", "public", "return", "static", "template", "typename", "sfloat", "lfloat",
    "float", "double", "true", "unit", "ubyte", "ushort", "ulong", "uint", "ulongint", "void", "while"]

/-- Symbols, a longer one before those it begins with. -/
def symbols : List SourceText :=
  [['.', '.', '.'], ['<', '<', '='], ['>', '>', '='], ['*', '*', '='], ['/', '/', '='], ['?', '?', '='],
    ['+', '='], ['-', '='], ['*', '='], ['/', '='], ['%', '='], ['&', '='], ['|', '='], ['^', '='],
    ['?', '?'], ['?', ':'], [':', ':'], ['=', '='], [backslash, '='], ['<', '='], ['>', '='], ['&', '&'],
    ['|', '|'], ['/', '/'], ['-', '>'], ['*', '*'], ['+', '+'],
    ['{'], ['}'], ['('], [')'], [','], [':'], [';'], ['.'], ['='], ['+'], ['-'], ['*'], ['/'], ['%'], ['&'],
    ['|'], ['^'], ['<'], ['>'], ['!'], ['?'], ['['], [']'], [backslash]]

def longestSymbol (source : SourceText) : Option SourceText :=
  symbols.find? fun candidate => source.take candidate.length = candidate

def dropDocumentationMarker : SourceText → SourceText
  | [] => []
  | character :: remaining =>
      if character = '|' || character = '!' then remaining else character :: remaining

/-- A line break moves to the start of the next line. -/
def consumeLineBreak (position : SourcePosition) (input : SourceText) : Option (SourcePosition × SourceText) :=
  (splitLineBreak input).map fun split => (position.nextLine, split.2)

/-- The level of a long bracket, the width of its opener, and what follows. -/
def longBracketOpener : SourceText → Option (Nat × Nat × SourceText)
  | [] => none
  | character :: remaining =>
      if character = '[' then
        match remaining.dropWhile (· = '=') with
        | [] => none
        | bracket :: content =>
            let level := (remaining.takeWhile (· = '=')).length
            if bracket = '[' then some (level, level + 2, content) else none
      else none

def longBracketCloser (level : Nat) : SourceText := ']' :: (List.replicate level '=' ++ [']'])

/-- A raw string does not include a line break right before its closer. -/
def dropFinalBoundaryNewline (value : SourceText) : SourceText :=
  if value.getLast? = some lineFeed then value.dropLast else value

/-- The scalar value of hexadecimal digits. -/
def scalar (digits rest : SourceText) : Except String (Char × Nat × SourceText) :=
  let value := digits.foldl (fun total digit => total * 16 + digitToInt digit) 0
  if value > 1114111 || (value ≥ 55296 && value ≤ 57343) then
    .error "escape does not encode a Unicode scalar value"
  else .ok (Char.ofNat value, digits.length + 1, rest)

def hexadecimal (input : SourceText) : Except String (Char × Nat × SourceText) :=
  if (input.takeWhile isHexDigit).isEmpty then .error "hexadecimal escape requires at least one digit"
  else scalar (input.takeWhile isHexDigit) (input.dropWhile isHexDigit)

def exactHexadecimal (width : Nat) (input : SourceText) : Except String (Char × Nat × SourceText) :=
  if (input.take width).length ≠ width || (input.take width).any (fun digit => !isHexDigit digit) then
    .error ("Unicode escape requires exactly " ++ toString width ++ " hexadecimal digits")
  else scalar (input.take width) (input.drop width)

/-- Escapes of one character, with what they stand for. -/
def simpleEscapes : List (Char × Char) :=
  [(apostrophe, apostrophe), (doubleQuote, doubleQuote), (backslash, backslash), ('0', Char.ofNat 0),
    ('a', Char.ofNat 7), ('b', Char.ofNat 8), ('e', Char.ofNat 27), ('f', Char.ofNat 12), ('n', lineFeed),
    ('r', carriageReturn), ('t', Char.ofNat 9), ('v', Char.ofNat 11)]

/-- What an escape stands for, the characters it takes after the backslash, and what follows. -/
def decodeEscape : SourceText → Except String (Char × Nat × SourceText)
  | [] => .error "unterminated escape sequence"
  | escape :: remaining =>
      match simpleEscapes.lookup escape with
      | some value => .ok (value, 1, remaining)
      | none =>
          if escape = 'x' then hexadecimal remaining
          else if escape = 'u' then exactHexadecimal 4 remaining
          else if escape = 'U' then exactHexadecimal 8 remaining
          else .error ("unsupported escape sequence " ++ String.ofList [backslash, escape])

/-! ### What follows is shorter -/

variable {input remaining : SourceText} {value : Char} {width : Nat}

theorem splitLineBreak_shorter {lineBreak : SourceText}
    (h : splitLineBreak input = some (lineBreak, remaining)) : remaining.length < input.length := by
  obtain ⟨rfl, hlineBreak, -⟩ := splitLineBreak_eq_some h
  have hpositive := List.length_pos_iff.mpr hlineBreak
  rw [List.length_append]
  omega

theorem consumeLineBreak_shorter {position next : SourcePosition}
    (h : consumeLineBreak position input = some (next, remaining)) : remaining.length < input.length := by
  obtain ⟨⟨lineBreak, rest⟩, hsplit, hnext⟩ := Option.map_eq_some_iff.mp h
  cases hnext
  exact splitLineBreak_shorter hsplit

theorem scalar_eq_ok {digits rest : SourceText}
    (h : scalar digits rest = .ok (value, width, remaining)) : width = digits.length + 1 ∧ remaining = rest := by
  unfold scalar at h
  simp only at h
  split at h
  · cases h
  · cases h
    exact ⟨rfl, rfl⟩

theorem hexadecimal_eq_ok (h : hexadecimal input = .ok (value, width, remaining)) :
    ∃ digits, input = digits ++ remaining ∧ width = digits.length + 1 ∧
      ∀ digit ∈ digits, isHexDigit digit = true := by
  unfold hexadecimal at h
  split at h
  · cases h
  · obtain ⟨hwidth, rfl⟩ := scalar_eq_ok h
    exact ⟨_, (List.takeWhile_append_dropWhile).symm, hwidth, fun digit => List.mem_takeWhile_imp⟩

theorem exactHexadecimal_eq_ok {count : Nat} (h : exactHexadecimal count input = .ok (value, width, remaining)) :
    ∃ digits, input = digits ++ remaining ∧ width = digits.length + 1 ∧
      ∀ digit ∈ digits, isHexDigit digit = true := by
  unfold exactHexadecimal at h
  split at h
  · cases h
  · next hdigits =>
      obtain ⟨hwidth, rfl⟩ := scalar_eq_ok h
      refine ⟨_, (List.take_append_drop _ _).symm, hwidth, ?_⟩
      simp only [Bool.or_eq_true, List.any_eq_true, not_or, not_exists, not_and] at hdigits
      intro digit hmem
      simpa using hdigits.2 digit hmem

/-- An escape is one character that is no line break, and hexadecimal digits. -/
theorem decodeEscape_eq_ok (h : decodeEscape input = .ok (value, width, remaining)) :
    ∃ escape digits, input = escape :: (digits ++ remaining) ∧ width = digits.length + 1 ∧
      isLineBreak escape = false ∧ ∀ digit ∈ digits, isHexDigit digit = true := by
  cases input with
  | nil => cases h
  | cons escape rest =>
      have hnumeric : ∀ letter, escape = letter → isLineBreak letter = false →
          (∃ digits, rest = digits ++ remaining ∧ width = digits.length + 1 ∧
            ∀ digit ∈ digits, isHexDigit digit = true) →
          ∃ escape' digits, escape :: rest = escape' :: (digits ++ remaining) ∧ width = digits.length + 1 ∧
            isLineBreak escape' = false ∧ ∀ digit ∈ digits, isHexDigit digit = true := by
        rintro _ rfl hletter ⟨digits, rfl, hwidth, hdigits⟩
        exact ⟨escape, digits, rfl, hwidth, hletter, hdigits⟩
      rw [decodeEscape] at h
      split at h
      · next stands hfind =>
          cases h
          obtain ⟨before, after, hsplit, -⟩ := List.lookup_eq_some_iff.mp hfind
          have hmem : (escape, value) ∈ simpleEscapes := by
            rw [hsplit]
            simp
          have hplain : simpleEscapes.all (fun row => !isLineBreak row.1) = true := rfl
          exact ⟨escape, [], rfl, rfl, by simpa using List.all_eq_true.mp hplain _ hmem, nofun⟩
      · split at h
        · next heq => exact hnumeric _ heq rfl (hexadecimal_eq_ok h)
        · split at h
          · next heq => exact hnumeric _ heq rfl (exactHexadecimal_eq_ok h)
          · split at h
            · next heq => exact hnumeric _ heq rfl (exactHexadecimal_eq_ok h)
            · cases h

theorem decodeEscape_shorter
    (h : decodeEscape input = .ok (value, width, remaining)) : remaining.length < input.length := by
  obtain ⟨escape, digits, rfl, -, -, -⟩ := decodeEscape_eq_ok h
  simp only [List.length_cons, List.length_append]
  omega

/-! ### Comments and literals -/

section Rounds

variable (classes : CharacterClasses) (file : String)

def diagnostic (code : String) (position : SourcePosition) (message : String) : LexicalDiagnostic :=
  ⟨code, ⟨file, position, position.right 1⟩, message⟩

/-- The rest of a long comment. -/
def skipLongComment (level : Nat) (position : SourcePosition) (input : SourceText) :
    Except LexicalDiagnostic (SourcePosition × SourceText) :=
  match stripPrefix (longBracketCloser level) input with
  | some remaining => .ok (position.right (level + 2), remaining)
  | none =>
      match input with
      | [] => .error (diagnostic file "TAL0002" position "unterminated long comment")
      | character :: rest =>
          match _h : consumeLineBreak position (character :: rest) with
          | some (next, remaining) => skipLongComment level next remaining
          | none => skipLongComment level (position.right 1) rest
termination_by input.length
decreasing_by
  · exact consumeLineBreak_shorter _h
  · simp

/-- The rest of a raw string: its text so far is reversed, and a line break counts as a line feed. -/
def collectRaw (start : SourcePosition) (level : Nat) (position : SourcePosition) (input value : SourceText) :
    Except LexicalDiagnostic (SourceText × SourcePosition × SourceText) :=
  match stripPrefix (longBracketCloser level) input with
  | some remaining => .ok (dropFinalBoundaryNewline value.reverse, position.right (level + 2), remaining)
  | none =>
      match input with
      | [] => .error (diagnostic file "TAL0005" start "unterminated raw string literal")
      | character :: rest =>
          match _h : consumeLineBreak position (character :: rest) with
          | some (next, remaining) => collectRaw start level next remaining (lineFeed :: value)
          | none => collectRaw start level (position.right 1) rest (character :: value)
termination_by input.length
decreasing_by
  · exact consumeLineBreak_shorter _h
  · simp

/-- The rest of a string: a line break counts as a space, escapes are decoded. -/
def collectString (position : SourcePosition) (input value : SourceText) :
    Except LexicalDiagnostic (SourceText × SourcePosition × SourceText) :=
  match input with
  | [] => .error (diagnostic file "TAL0003" position "unterminated string literal")
  | character :: remaining =>
      if character = doubleQuote then .ok (value.reverse, position.right 1, remaining)
      else
        match _h : consumeLineBreak position (character :: remaining) with
        | some (next, rest) => collectString next rest (' ' :: value)
        | none =>
            if character = backslash then
              match _h' : decodeEscape remaining with
              | .error message => .error (diagnostic file "TAL0004" position message)
              | .ok (decoded, width, rest) =>
                  collectString (position.right (width + 1)) rest (decoded :: value)
            else collectString (position.right 1) remaining (character :: value)
termination_by input.length
decreasing_by
  · exact consumeLineBreak_shorter _h
  · have := decodeEscape_shorter _h'
    simp only [List.length_cons]
    omega
  · simp

/-! ### Rounds -/

/-- What one round of the scanner consumes. -/
inductive Lexeme
  | blank
  | comment
  | token (kind : TokenKind) (text : SourceText)

/-- A round: what it consumes, from where to where, and what is left. -/
structure Round where
  roundLexeme : Lexeme
  roundStart : SourcePosition
  roundEnd : SourcePosition
  roundRemaining : SourceText

open Lexeme

/-- A token on one line. -/
def plainToken (kind : TokenKind) (position : SourcePosition) (text remaining : SourceText) : Round :=
  ⟨token kind text, position, position.right text.length, remaining⟩

/-- A comment, after its two dashes. Documentation markers are consumed with it. -/
def lexComment (position : SourcePosition) (input : SourceText) : Except LexicalDiagnostic Round :=
  match longBracketOpener input with
  | some (level, openerWidth, afterOpener) => do
      let afterMarker := dropDocumentationMarker afterOpener
      let markerWidth := afterOpener.length - afterMarker.length
      let (position', remaining) ←
        skipLongComment file level (position.right (2 + openerWidth + markerWidth)) afterMarker
      .ok ⟨comment, position, position', remaining⟩
  | none =>
      let afterMarker := dropDocumentationMarker input
      let body := afterMarker.takeWhile fun character => !isLineBreak character
      .ok ⟨comment, position, position.right (2 + (input.length - afterMarker.length) + body.length),
        afterMarker.dropWhile fun character => !isLineBreak character⟩

/-- A raw string, after its opener: a line break right there is dropped. -/
def lexRawString (position : SourcePosition) (level openerWidth : Nat) (input : SourceText) :
    Except LexicalDiagnostic Round := do
  let (position', content) :=
    (consumeLineBreak (position.right openerWidth) input).getD (position.right openerWidth, input)
  let (text, position'', remaining) ← collectRaw file position level position' content []
  .ok ⟨token stringToken text, position, position'', remaining⟩

def lexString (position : SourcePosition) (input : SourceText) : Except LexicalDiagnostic Round := do
  let (text, position', remaining) ← collectString file (position.right 1) input []
  .ok ⟨token stringToken text, position, position', remaining⟩

/-- A numeric candidate, checked as what it looks like. -/
def lexNumber (position : SourcePosition) (input : SourceText) : Except LexicalDiagnostic Round :=
  let (text, remaining) := scanNumericCandidate classes input
  if isFloatingCandidate text then
    match validateFloatingSpelling classes text with
    | .error issue => .error (diagnostic file "TAL0008" position (renderFloatingLiteralError classes issue))
    | .ok _ => .ok (plainToken floatingToken position text remaining)
  else
    match parseIntegerSpelling classes text with
    | .error issue => .error (diagnostic file "TAL0006" position (renderIntegerLiteralError classes issue))
    | .ok _ => .ok (plainToken integerToken position text remaining)

def isNameCharacter (character : Char) : Bool := classes.isAlphaNum character || character = '_'

def lexName (position : SourcePosition) (character : Char) (rest : SourceText) : Round :=
  let text := character :: rest.takeWhile (isNameCharacter classes)
  let kind := if keywords.contains (String.ofList text) then keywordToken else identifierToken
  plainToken kind position text (rest.dropWhile (isNameCharacter classes))

def lexCharacter (position : SourcePosition) (input : SourceText) : Except LexicalDiagnostic Round :=
  match scanCharacterLiteral input with
  | .error issue => .error (diagnostic file "TAL0007" position (renderCharacterLiteralError issue))
  | .ok (text, remaining) => .ok (plainToken characterToken position text remaining)

def lexSymbol (position : SourcePosition) (character : Char) (input : SourceText) :
    Except LexicalDiagnostic Round :=
  match longestSymbol input with
  | some symbol => .ok (plainToken symbolToken position symbol (input.drop symbol.length))
  | none =>
      .error (diagnostic file "TAL0001" position ("unsupported character " ++ classes.showCharacter character))

/-- One round, on an input that is not empty. -/
def lexRound (position : SourcePosition) (character : Char) (rest : SourceText) :
    Except LexicalDiagnostic Round :=
  match stripPrefix ['-', '-'] (character :: rest) with
  | some remaining => lexComment file position remaining
  | none =>
      match longBracketOpener (character :: rest) with
      | some (level, openerWidth, remaining) => lexRawString file position level openerWidth remaining
      | none =>
          match consumeLineBreak position (character :: rest) with
          | some (next, remaining) => .ok ⟨blank, position, next, remaining⟩
          | none =>
              if classes.isSpace character then .ok ⟨blank, position, position.right 1, rest⟩
              else if classes.isAlpha character || character = '_' then
                .ok (lexName classes position character rest)
              else if character.isDigit then lexNumber classes file position (character :: rest)
              else if character = doubleQuote then lexString file position rest
              else if character = apostrophe then lexCharacter file position (character :: rest)
              else lexSymbol classes file position character (character :: rest)

/-! ### A round leaves less than it found -/

variable {classes} {file} {position position' start : SourcePosition} {level openerWidth : Nat}
  {input remaining value text rest : SourceText} {character : Char} {round : Round}

theorem longBracketCloser_shorter (h : stripPrefix (longBracketCloser level) input = some remaining) :
    remaining.length < input.length := by
  rw [stripPrefix_eq_some] at h
  rw [h, longBracketCloser, List.length_append, List.length_cons]
  omega

theorem skipLongComment_shorter
    (h : skipLongComment file level position input = .ok (position', remaining)) :
    remaining.length < input.length := by
  fun_induction skipLongComment file level position input with
  | case1 position input rest hcloser =>
      cases h
      exact longBracketCloser_shorter hcloser
  | case2 => cases h
  | case3 position character rest next remaining' hbreak hcloser ih =>
      have hbroken := consumeLineBreak_shorter hbreak
      have hrest := ih h
      omega
  | case4 position character rest hbreak hcloser ih =>
      have hrest := ih h
      simp only [List.length_cons]
      omega

/-- A raw string ends where a long comment of its level does. -/
theorem skipLongComment_of_collectRaw
    (h : collectRaw file start level position input value = .ok (text, position', remaining)) :
    skipLongComment file level position input = .ok (position', remaining) := by
  fun_induction collectRaw file start level position input value with
  | case1 position input value rest hcloser =>
      cases h
      rw [skipLongComment.eq_def, hcloser]
  | case2 => cases h
  | case3 position value character rest next remaining' hbreak hcloser ih =>
      rw [skipLongComment, hcloser]
      dsimp only
      split <;> rename_i heq <;> rw [hbreak] at heq <;> cases heq
      exact ih h
  | case4 position value character rest hbreak hcloser ih =>
      rw [skipLongComment, hcloser]
      dsimp only
      split <;> rename_i heq <;> rw [hbreak] at heq <;> cases heq
      exact ih h

theorem collectString_shorter
    (h : collectString file position input value = .ok (text, position', remaining)) :
    remaining.length < input.length := by
  fun_induction collectString file position input value with
  | case1 => cases h
  | case2 position value remaining' =>
      cases h
      simp
  | case3 position value character rest hquote next remaining' hbreak ih =>
      have hbroken := consumeLineBreak_shorter hbreak
      have hrest := ih h
      omega
  | case4 => cases h
  | case5 position value rest decoded width after hescape hquote hbreak ih =>
      have hescaped := decodeEscape_shorter hescape
      have hrest := ih h
      simp only [List.length_cons]
      omega
  | case6 position value character rest hquote hbreak hslash ih =>
      have hrest := ih h
      simp only [List.length_cons]
      omega

/-- What follows a long bracket. -/
theorem longBracketOpener_eq_some {openerWidth : Nat}
    (h : longBracketOpener input = some (level, openerWidth, remaining)) :
    input = '[' :: (List.replicate level '=' ++ '[' :: remaining) ∧ openerWidth = level + 2 := by
  cases input with
  | nil => cases h
  | cons character rest =>
      rw [longBracketOpener] at h
      split at h
      · next hopen =>
          split at h
          · cases h
          · next bracket content hcontent =>
              simp only at h
              split at h
              · next hbracket =>
                  cases h
                  have hequals := takeWhile_eq_replicate '=' rest
                  have hsplit := List.takeWhile_append_dropWhile (p := (· = '=')) (l := rest)
                  refine ⟨?_, rfl⟩
                  rw [hopen, ← hequals, ← hbracket, ← hcontent, hsplit]
              · cases h
      · cases h

theorem dropDocumentationMarker_length_le : (dropDocumentationMarker input).length ≤ input.length := by
  cases input with
  | nil => exact Nat.le_refl _
  | cons character rest =>
      rw [dropDocumentationMarker]
      split <;> simp

theorem lexComment_shorter (h : lexComment file position input = .ok round) :
    round.roundRemaining.length ≤ input.length := by
  have hmarker : ∀ input : SourceText, (dropDocumentationMarker input).length ≤ input.length :=
    fun _ => dropDocumentationMarker_length_le
  unfold lexComment at h
  split at h
  · next level openerWidth afterOpener hopener =>
      obtain ⟨rfl, -⟩ := longBracketOpener_eq_some hopener
      cases hskip : skipLongComment file level (position.right (2 + openerWidth
          + (afterOpener.length - (dropDocumentationMarker afterOpener).length)))
          (dropDocumentationMarker afterOpener) with
      | error issue => simp [hskip, bind, Except.bind] at h
      | ok parts =>
          simp only [hskip, bind, Except.bind, Except.ok.injEq] at h
          have hshorter := skipLongComment_shorter hskip
          have hdropped := hmarker afterOpener
          rw [← h]
          simp only [List.length_cons, List.length_append]
          omega
  · cases h
    have hdropped := hmarker input
    have hbody := List.length_dropWhile_le (fun character => !isLineBreak character)
      (dropDocumentationMarker input)
    show (List.dropWhile _ _).length ≤ _
    omega

theorem lexRawString_shorter (h : lexRawString file position level openerWidth input = .ok round) :
    round.roundRemaining.length < input.length := by
  unfold lexRawString at h
  have hcontent : ((consumeLineBreak (position.right openerWidth) input).getD
      (position.right openerWidth, input)).2.length ≤ input.length := by
    cases hbreak : consumeLineBreak (position.right openerWidth) input with
    | none => exact Nat.le_refl _
    | some next => exact Nat.le_of_lt (consumeLineBreak_shorter hbreak)
  revert h
  generalize (consumeLineBreak (position.right openerWidth) input).getD (position.right openerWidth, input)
    = next at hcontent
  intro h
  cases hraw : collectRaw file position level next.1 next.2 [] with
  | error issue => simp [hraw, bind, Except.bind] at h
  | ok parts =>
      simp only [hraw, bind, Except.bind, Except.ok.injEq] at h
      rw [← h]
      exact Nat.lt_of_lt_of_le (skipLongComment_shorter (skipLongComment_of_collectRaw hraw)) hcontent

theorem lexString_shorter (h : lexString file position input = .ok round) :
    round.roundRemaining.length < input.length := by
  unfold lexString at h
  cases hstring : collectString file (position.right 1) input [] with
  | error issue => simp [hstring, bind, Except.bind] at h
  | ok parts =>
      simp only [hstring, bind, Except.bind, Except.ok.injEq] at h
      rw [← h]
      exact collectString_shorter hstring

theorem longestSymbol_eq_some {symbol : SourceText} (h : longestSymbol input = some symbol) :
    symbol ∈ symbols ∧ input = symbol ++ input.drop symbol.length := by
  have htake : input.take symbol.length = symbol := by simpa using List.find?_some h
  refine ⟨List.mem_of_find?_eq_some h, ?_⟩
  conv_lhs => rw [← List.take_append_drop symbol.length input, htake]

theorem lexSymbol_shorter (h : lexSymbol classes file position character input = .ok round) :
    round.roundRemaining.length < input.length := by
  unfold lexSymbol at h
  split at h
  · next symbol hsymbol =>
      cases h
      obtain ⟨hmem, hinput⟩ := longestSymbol_eq_some hsymbol
      have hnonempty : symbols.all (fun symbol => 0 < symbol.length) = true := rfl
      have hpositive : 0 < symbol.length := by simpa using List.all_eq_true.mp hnonempty _ hmem
      have hlength := congrArg List.length hinput
      rw [List.length_append] at hlength
      show (input.drop symbol.length).length < _
      omega
  · cases h

theorem lexNumber_shorter (hdigit : character.isDigit = true)
    (h : lexNumber classes file position (character :: rest) = .ok round) :
    round.roundRemaining.length < (character :: rest).length := by
  obtain ⟨text, htext⟩ : ∃ text, (scanNumericCandidate classes (character :: rest)).1 = character :: text :=
    scanNumericCandidate_cons hdigit
  have happend := congrArg List.length (scanNumericCandidate_append classes (character :: rest))
  rw [htext, List.length_append, List.length_cons] at happend
  have hround : round.roundRemaining = (scanNumericCandidate classes (character :: rest)).2 := by
    unfold lexNumber at h
    simp only at h
    split at h
    · split at h
      · cases h
      · cases h
        rfl
    · split at h
      · cases h
      · cases h
        rfl
  rw [hround]
  omega

/-- **A round leaves less than it found.** -/
theorem lexRound_shorter (h : lexRound classes file position character rest = .ok round) :
    round.roundRemaining.length < (character :: rest).length := by
  rw [lexRound] at h
  split at h
  · next remaining hdashes =>
      rw [stripPrefix_eq_some.mp hdashes]
      have hcomment := lexComment_shorter h
      simp only [List.length_append, List.length_cons]
      omega
  · split at h
    · next level openerWidth remaining hopener =>
        obtain ⟨hinput, -⟩ := longBracketOpener_eq_some hopener
        have hraw := lexRawString_shorter h
        rw [hinput]
        simp only [List.length_append, List.length_cons]
        omega
    · split at h
      · next next remaining hbreak =>
          cases h
          exact consumeLineBreak_shorter hbreak
      · split at h
        · cases h
          exact Nat.lt_succ_self _
        · split at h
          · cases h
            exact Nat.lt_succ_of_le (List.length_dropWhile_le _ _)
          · split at h
            · next hdigit => exact lexNumber_shorter hdigit h
            · split at h
              · exact Nat.lt_succ_of_lt (lexString_shorter h)
              · split at h
                · unfold lexCharacter at h
                  split at h
                  · cases h
                  · next text remaining hliteral =>
                      cases h
                      obtain ⟨body, hinput, -, -⟩ := scanCharacterLiteral_eq_ok hliteral
                      rw [hinput]
                      simp only [List.length_append, List.length_cons]
                      show remaining.length < _
                      omega
                · exact lexSymbol_shorter h

end Rounds

/-! ### All rounds -/

section Tokens

variable (classes : CharacterClasses) (file : String)

/-- Round after round; the last one finds the end of the file. -/
def lexRounds (position : SourcePosition) (input : SourceText) : Except LexicalDiagnostic (List Round) :=
  match input with
  | [] => .ok [⟨.token endOfFileToken [], position, position, []⟩]
  | character :: rest =>
      match _h : lexRound classes file position character rest with
      | .error issue => .error issue
      | .ok round => do
          let later ← lexRounds round.roundEnd round.roundRemaining
          .ok (round :: later)
termination_by input.length
decreasing_by exact lexRound_shorter _h

/-- The token of a round, if it is one. -/
def Round.token? (round : Round) : Option Token :=
  match round.roundLexeme with
  | .token kind text => some ⟨kind, text, ⟨file, round.roundStart, round.roundEnd⟩⟩
  | _ => none

/-- The rounds of a source. -/
def sourceRounds (input : LexerInput) : Except (List LexicalDiagnostic) (List Round) :=
  match lexRounds classes input.lexerSourceFile ⟨1, 1⟩ input.lexerSourceText with
  | .error issue => .error [issue]
  | .ok rounds => .ok rounds

/-- Scan the whole source. -/
def lexTala (input : LexerInput) : Except (List LexicalDiagnostic) (List Token) := do
  let rounds ← sourceRounds classes input
  .ok (rounds.filterMap (Round.token? input.lexerSourceFile))

end Tokens

end Lexer

end Tala.Syntax
