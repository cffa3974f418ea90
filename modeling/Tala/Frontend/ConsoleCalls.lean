import Tala.Core.Desugarer
import Tala.Core.Value
import Tala.Frontend.FormatGrammar

/-!
# `Frontend.ConsoleCalls` — calls of the console in the type checker

A call of a method of `System.Console` is checked here and rewritten into calls of the runtime: the conversions
of its format, joined, and one write. The checker of expressions is a parameter, `check`: it is given the type a
place expects, and returns the typed tree, its type and what it reports.
-/

namespace Tala.Frontend.Console

open Tala Tala.Syntax
open Tala.Core (RuntimeFunction RuntimeParameter runtimeFunctionIdentity runtimeFunctionOf runtimeFunctionOf_identity
  runtimeResult runtimeAccepts voidType expressionAnnotationOf)

/-! ## Runtime calls in the typed tree -/

def runtimeFunctionSymbol : RuntimeFunction → String
  | .textConcat => "tala_text_concat"
  | .textFromSigned => "tala_text_from_signed"
  | .textFromUnsigned => "tala_text_from_unsigned"
  | .textFromBool => "tala_text_from_bool"
  | .textFromChar => "tala_text_from_char"
  | .textFormatSigned => "tala_text_format_signed"
  | .textFormatUnsigned => "tala_text_format_unsigned"
  | .textFormatFloating => "tala_text_format_floating"
  | .textFormatString => "tala_text_format_string"
  | .textFormatChar => "tala_text_format_char"
  | .textNewline => "tala_text_newline"
  | .consoleWrite => "tala_console_write"
  | .textEquals => "tala_text_equals"

def runtimeNameBase : Int := 1000

/-- The name a call of a runtime function has in the typed tree; no declaration of a program has its symbol. -/
def runtimeName (function : RuntimeFunction) : ResolvedName :=
  ⟨-(runtimeNameBase + runtimeFunctionIdentity function), "$" ++ runtimeFunctionSymbol function⟩

/-- The runtime function a name of the typed tree stands for. -/
def runtimeFunctionOfName (name : ResolvedName) : Option RuntimeFunction :=
  let value := -name.resolvedSymbol - runtimeNameBase
  if value > 0 then runtimeFunctionOf value else none

theorem runtimeFunctionOfName_runtimeName (function : RuntimeFunction) :
    runtimeFunctionOfName (runtimeName function) = some function := by
  have hvalue : -(runtimeName function).resolvedSymbol - runtimeNameBase = runtimeFunctionIdentity function := by
    simp only [runtimeName]
    omega
  have hpositive : runtimeFunctionIdentity function > 0 := by cases function <;> decide
  rw [runtimeFunctionOfName, hvalue]
  exact (if_pos hpositive).trans (runtimeFunctionOf_identity function)

def runtimeCall (spanValue : SourceSpan) (function : RuntimeFunction) (arguments : List (Expression ResolvedName)) :
    Expression ResolvedName :=
  let result := match runtimeResult function with
    | .noResult => voidType
    | .textResult => stringType
    | .truthResult => boolType
  .callExpression spanValue
    (.nameExpression spanValue (runtimeName function) (.functionType (arguments.map expressionAnnotationOf) result))
    arguments result

def integer (spanValue : SourceSpan) (value : Int) : Expression ResolvedName :=
  .literalExpression spanValue (.integerLiteral value) intType

def text (spanValue : SourceSpan) (value : String) : Expression ResolvedName :=
  .literalExpression spanValue (.stringLiteral value) stringType

/-- A width or a precision that a conversion does not have. -/
def absent : Int := -1

def consoleOutput : Int := 0
def consoleOutputLine : Int := 1
def consoleError : Int := 2
def consoleErrorLine : Int := 3

/-! ## Checking -/

/-- An error of the type checker. -/
structure TypeCheckerDiagnostic where
  diagnosticSpan : SourceSpan
  diagnosticCode : String
  diagnosticMessage : String

/-- What is checked: the typed tree, its type, and what is reported. -/
abbrev Checked := Expression ResolvedName × Ty × List TypeCheckerDiagnostic

/-- An argument before it is checked: a string literal, or an expression only the checker looks into. -/
inductive Argument (source : Type)
  | stringLiteral (span : SourceSpan) (value : String)
  | other (span : SourceSpan) (expression : source)

def Argument.span {source : Type} : Argument source → SourceSpan
  | .stringLiteral span _ => span
  | .other span _ => span

/-- The checker of expressions, given the type its place expects. -/
abbrev CheckExpression (source : Type) := Option Ty → Argument source → Checked

def expressionSourceSpan : Expression ResolvedName → SourceSpan
  | .nameExpression span _ _ => span
  | .literalExpression span _ _ => span
  | .memberAccessExpression span _ _ _ => span
  | .methodReferenceExpression span _ _ _ => span
  | .callExpression span _ _ _ => span
  | .unaryExpression span _ _ _ => span
  | .binaryExpression span _ _ _ _ => span
  | .isPatternExpression span _ _ _ => span
  | .conditionalExpression span _ _ _ _ => span
  | .coalesceExpression span _ _ _ => span
  | .assignmentExpression span _ _ _ _ => span
  | .incrementExpression span _ _ _ => span
  | .loopExpression span _ _ => span
  | .blockExpression span _ _ => span
  | .matchExpression span _ _ _ => span
  | .callableExpression span _ _ _ _ _ => span

/-- What a failed check leaves in the tree. -/
def failed (spanValue : SourceSpan) (problems : List TypeCheckerDiagnostic) : Checked :=
  (.literalExpression spanValue .unitLiteral .errorType, .errorType, problems)

def typeName : Ty → String
  | .namedType (part :: parts) [] => (part :: parts).getLast (List.cons_ne_nil _ _)
  | .functionType _ _ => "callable"
  | _ => "value of this type"

/-- The scalar types the runtime does not take yet, with what they wait for. -/
def pendingScalar : Ty → Option String
  | .namedType [name] [] =>
      if name ∈ ["longint", "ulongint"] then some "128-bit integers are not written as text yet"
      else if name = "double" then some "128-bit floating-point numbers are not written as text yet"
      else none
  | _ => none

def isFloating (valueType : Ty) : Bool := runtimeAccepts .floatingParameter valueType

/-- A value as text, the way `Print` writes it. -/
def asText (spanValue : SourceSpan) (value : Expression ResolvedName) (valueType : Ty) :
    Except (List TypeCheckerDiagnostic) (Expression ResolvedName) :=
  if valueType = .errorType then .error []
  else if valueType = stringType then .ok value
  else if runtimeAccepts .signedParameter valueType then .ok (runtimeCall spanValue .textFromSigned [value])
  else if runtimeAccepts .unsignedParameter valueType then .ok (runtimeCall spanValue .textFromUnsigned [value])
  else if runtimeAccepts .boolParameter valueType then .ok (runtimeCall spanValue .textFromBool [value])
  else if runtimeAccepts .charParameter valueType then .ok (runtimeCall spanValue .textFromChar [value])
  else
    match pendingScalar valueType with
    | some reason => .error [⟨spanValue, "TAT0079", reason⟩]
    | none =>
        if isFloating valueType then
          .error [⟨spanValue, "TAT0079", "a floating-point number has no text form of its own yet; write it " ++
            "with Console.Printf or Console.Format and %f"⟩]
        else .error [⟨spanValue, "TAT0073", "a " ++ typeName valueType ++ " cannot be written as text"⟩]

def counted (amount : Nat) : String :=
  if amount = 0 then "no argument" else if amount = 1 then "one argument" else toString amount ++ " arguments"

def given (amount : Nat) : String :=
  if amount = 0 then "none was given" else if amount = 1 then "one was given" else toString amount ++ " were given"

/-- The type a conversion expects of a literal; a value that has a type keeps it. -/
def expectedFor : ConversionKind → Option Ty
  | .unsignedDecimal => some (namedType "uint")
  | .fixedPoint => some (namedType "float")
  | _ => none

section Calls

variable {source : Type} (check : CheckExpression source) (callSpan : SourceSpan)

/-- A width or a precision: absent, written in the format, or the next argument, which is an `int`. -/
def sizeArgument (written : Size) (values : List (Argument source)) :
    Expression ResolvedName × List (Argument source) × List TypeCheckerDiagnostic :=
  match written with
  | .noSize => (integer callSpan absent, values, [])
  | .fixedSize amount => (integer callSpan amount, values, [])
  | .argumentSize =>
      match values with
      | argument :: remaining =>
          let (value, valueType, problems) := check (some intType) argument
          let mismatch : List TypeCheckerDiagnostic :=
            if valueType ≠ .errorType ∧ valueType ≠ intType then
              [⟨expressionSourceSpan value, "TAT0078",
                "a width or a precision written as * takes an int, and the argument is a " ++ typeName valueType⟩]
            else []
          (value, remaining, problems ++ mismatch)
      | [] => (integer callSpan absent, values, [])

/-- A conversion of an argument, after the argument is checked. -/
def converted (value : Conversion) (width precision typed : Expression ResolvedName) (valueType : Ty)
    (problems : List TypeCheckerDiagnostic) : Expression ResolvedName × List TypeCheckerDiagnostic :=
  let kind := value.conversionKind
  let spanValue := expressionSourceSpan typed
  let flags := integer spanValue (conversionFlagBits value)
  let call (function : RuntimeFunction) (operand : Expression ResolvedName) :=
    runtimeCall spanValue function [flags, width, precision, operand]
  let plain := value.conversionFlags = [] ∧ value.conversionWidth = .noSize ∧ value.conversionPrecision = .noSize
  let mismatch (wanted : String) : Expression ResolvedName × List TypeCheckerDiagnostic :=
    (typed, problems ++ if valueType ≠ .errorType then
      [⟨spanValue, "TAT0078", "the conversion %" ++ String.singleton (conversionLetter kind) ++ " takes " ++ wanted ++
        ", and the argument is a " ++ typeName valueType⟩] else [])
  if valueType = .errorType then (typed, problems)
  else
    match pendingScalar valueType with
    | some reason => (typed, problems ++ [⟨spanValue, "TAT0079", reason⟩])
    | none =>
        match kind with
        | .signedDecimal =>
            if runtimeAccepts .signedParameter valueType then (call .textFormatSigned typed, problems)
            else mismatch "a signed integer"
        | .unsignedDecimal =>
            if runtimeAccepts .unsignedParameter valueType then (call .textFormatUnsigned typed, problems)
            else mismatch "an unsigned integer"
        | .hexadecimal =>
            if runtimeAccepts .signedParameter valueType then (call .textFormatSigned typed, problems)
            else if runtimeAccepts .unsignedParameter valueType then (call .textFormatUnsigned typed, problems)
            else mismatch "an integer"
        | .fixedPoint =>
            if isFloating valueType then (call .textFormatFloating typed, problems)
            else mismatch "a floating-point number"
        | .text =>
            if valueType ≠ stringType then mismatch "a String"
            else if plain then (typed, problems)
            else (call .textFormatString typed, problems)
        | .character =>
            if runtimeAccepts .charParameter valueType then (call .textFormatChar typed, problems)
            else mismatch "a char"
        | .truth =>
            if ¬ runtimeAccepts .boolParameter valueType then mismatch "a bool"
            else if plain then (runtimeCall spanValue .textFromBool [typed], problems)
            else (call .textFormatString (runtimeCall spanValue .textFromBool [typed]), problems)

def converting (value : Conversion) (width precision : Expression ResolvedName) (argument : Argument source) :
    Expression ResolvedName × List TypeCheckerDiagnostic :=
  let (typed, valueType, problems) := check (expectedFor value.conversionKind) argument
  converted value width precision typed valueType problems

/-- Each piece of the format as a string expression, with the arguments in the order the conversions name them. -/
def convert (formatSpan : SourceSpan) :
    List FormatPiece → List (Argument source) → List (Expression ResolvedName) × List TypeCheckerDiagnostic
  | [], _ => ([], [])
  | .literalPiece literal :: later, values =>
      let (pieces, problems) := convert formatSpan later values
      (text formatSpan (String.ofList literal) :: pieces, problems)
  | .newlinePiece :: later, values =>
      let (pieces, problems) := convert formatSpan later values
      (runtimeCall formatSpan .textNewline [] :: pieces, problems)
  | .conversionPiece value :: later, values =>
      let (width, afterWidth, widthProblems) := sizeArgument check callSpan value.conversionWidth values
      let (precision, afterPrecision, precisionProblems) :=
        sizeArgument check callSpan value.conversionPrecision afterWidth
      match afterPrecision with
      | argument :: remaining =>
          let (piece, valueProblems) := converting check value width precision argument
          let (pieces, problems) := convert formatSpan later remaining
          (piece :: pieces, widthProblems ++ precisionProblems ++ valueProblems ++ problems)
      | [] => ([], widthProblems ++ precisionProblems)

/-- The pieces joined, and written if there is a stream. -/
def finish (target : Option Int) (pieces : List (Expression ResolvedName)) (problems : List TypeCheckerDiagnostic) :
    Checked :=
  if problems ≠ [] then failed callSpan problems
  else
    let joined := match pieces with
      | [] => text callSpan ""
      | first :: rest => rest.foldl (fun whole part => runtimeCall callSpan .textConcat [whole, part]) first
    match target with
    | some stream => (runtimeCall callSpan .consoleWrite [joined, integer callSpan stream], voidType, [])
    | none => (joined, stringType, [])

def argumentProblems (arguments : List (Argument source)) : List TypeCheckerDiagnostic :=
  arguments.flatMap fun argument => (check none argument).2.2

/-- How many arguments the conversions of a format take. -/
def neededArguments (parsed : List FormatPiece) : Nat :=
  (parsed.map fun piece => match piece with
    | .conversionPiece value => conversionArgumentCount value
    | _ => 0).sum

/-- One value, written as text. -/
def write (method : String) (target : Int) (arguments : List (Argument source)) : Checked :=
  match arguments with
  | [argument] =>
      let (value, valueType, problems) := check none argument
      match asText (expressionSourceSpan value) value valueType with
      | .ok written => (runtimeCall callSpan .consoleWrite [written, integer callSpan target], voidType, problems)
      | .error more => failed callSpan (problems ++ more)
  | _ =>
      failed callSpan (argumentProblems check arguments ++
        [⟨callSpan, "TAT0072", method ++ " takes one argument; " ++ given arguments.length⟩])

/-- A format and its arguments: written when there is a target, and the string itself when there is none. -/
def formatted (method : String) (target : Option Int) (arguments : List (Argument source)) : Checked :=
  match arguments with
  | [] => failed callSpan [⟨callSpan, "TAT0072", method ++ " takes a format; " ++ given 0⟩]
  | .stringLiteral formatSpan format :: values =>
      match parseFormat format.toList with
      | .error wrong =>
          failed callSpan (argumentProblems check values ++
            [⟨formatSpan, wrong.formatProblemCode, wrong.formatProblemMessage ++ " (character " ++
              toString wrong.formatProblemOffset ++ " of the format)"⟩])
      | .ok parsed =>
          if neededArguments parsed ≠ values.length then
            failed callSpan (argumentProblems check values ++
              [⟨callSpan, "TAT0077", "the format of " ++ method ++ " takes " ++ counted (neededArguments parsed) ++
                " after it; " ++ given values.length⟩])
          else
            let (pieces, problems) := convert check callSpan formatSpan parsed values
            finish callSpan target pieces problems
  | .other span expression :: values =>
      failed callSpan (argumentProblems check (.other span expression :: values) ++
        [⟨span, "TAT0074", "the format of " ++ method ++
          " must be a string literal, so that it can be checked when the program is compiled"⟩])

/-- A method of the console: what it writes to, as text or by a format. -/
inductive Method
  | value (target : Int)
  | format (target : Option Int)

def methods : List (Identifier × Method) :=
  [("Print", .value consoleOutput), ("Println", .value consoleOutputLine), ("Error", .value consoleError),
    ("Errorln", .value consoleErrorLine), ("Printf", .format (some consoleOutput)),
    ("Printfn", .format (some consoleOutputLine)), ("Errorf", .format (some consoleError)),
    ("Errorfn", .format (some consoleErrorLine)), ("Format", .format none)]

def checkConsoleCall (member : Identifier) (arguments : List (Argument source)) : Checked :=
  match methods.lookup member with
  | some (.value target) => write check callSpan ("Console." ++ member) target arguments
  | some (.format target) => formatted check callSpan ("Console." ++ member) target arguments
  | none =>
      if member ∈ ["Stdin", "Stdout", "Stderr"] then
        failed callSpan (argumentProblems check arguments ++
          [⟨callSpan, "TAT0079", "Console." ++ member ++ " needs stream objects and is not implemented yet"⟩])
      else
        failed callSpan (argumentProblems check arguments ++
          [⟨callSpan, "TAT0071", "Console has no method named " ++ member⟩])

end Calls

end Tala.Frontend.Console
