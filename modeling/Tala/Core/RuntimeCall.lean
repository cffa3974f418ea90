import Tala.AST
import Mathlib.Data.List.Forall2

/-!
# `Core.RuntimeCall` — the catalog of runtime calls

What the frontend knows about each function of the Tala runtime: its identity, the types it takes and
returns, and whether a call can be observed. `runtimeCallDefect` is the check Core and CorePrep share.
-/

namespace Tala.Core

open Tala

/-- A function of the runtime that generated code may call. -/
inductive RuntimeFunction
  | textConcat | textFromSigned | textFromUnsigned | textFromBool | textFromChar
  | textFormatSigned | textFormatUnsigned | textFormatFloating | textFormatString | textFormatChar
  | textNewline | consoleWrite | textEquals
  deriving DecidableEq, Repr

/-- What an argument of a runtime function may be. -/
inductive RuntimeParameter
  | signedParameter | unsignedParameter | floatingParameter | boolParameter | charParameter
  | textParameter | countParameter
  deriving DecidableEq, Repr

/-- What a runtime function returns. -/
inductive RuntimeResult
  | noResult | textResult | truthResult
  deriving DecidableEq, Repr

/-- Every runtime function, in order of identity. -/
def runtimeFunctions : List RuntimeFunction :=
  [ .textConcat, .textFromSigned, .textFromUnsigned, .textFromBool, .textFromChar
  , .textFormatSigned, .textFormatUnsigned, .textFormatFloating, .textFormatString, .textFormatChar
  , .textNewline, .consoleWrite, .textEquals ]

/-- The identity the first operand of a call holds. -/
def runtimeFunctionIdentity : RuntimeFunction → Int
  | .textConcat => 1
  | .textFromSigned => 2
  | .textFromUnsigned => 3
  | .textFromBool => 4
  | .textFromChar => 5
  | .textFormatSigned => 6
  | .textFormatUnsigned => 7
  | .textFormatFloating => 8
  | .textFormatString => 9
  | .textFormatChar => 10
  | .textNewline => 11
  | .consoleWrite => 12
  | .textEquals => 13

/-- The function with the given identity, when there is one. -/
def runtimeFunctionOf (identity : Int) : Option RuntimeFunction :=
  (runtimeFunctions.map (fun function => (runtimeFunctionIdentity function, function))).lookup identity

/-- Every function is found under its own identity. -/
theorem runtimeFunctionOf_identity (function : RuntimeFunction) :
    runtimeFunctionOf (runtimeFunctionIdentity function) = some function := by
  cases function <;> decide

/-- Flags, width and precision, then the value: the order of a format's arguments. -/
def conversion (value : RuntimeParameter) : List RuntimeParameter :=
  [.countParameter, .countParameter, .countParameter, value]

/-- The arguments of the function, in order. -/
def runtimeParameters : RuntimeFunction → List RuntimeParameter
  | .textConcat => [.textParameter, .textParameter]
  | .textFromSigned => [.signedParameter]
  | .textFromUnsigned => [.unsignedParameter]
  | .textFromBool => [.boolParameter]
  | .textFromChar => [.charParameter]
  | .textFormatSigned => conversion .signedParameter
  | .textFormatUnsigned => conversion .unsignedParameter
  | .textFormatFloating => conversion .floatingParameter
  | .textFormatString => conversion .textParameter
  | .textFormatChar => conversion .charParameter
  | .textNewline => []
  | .consoleWrite => [.textParameter, .countParameter]
  | .textEquals => [.textParameter, .textParameter]

/-- What the function returns. -/
def runtimeResult : RuntimeFunction → RuntimeResult
  | .consoleWrite => .noResult
  | .textEquals => .truthResult
  | _ => .textResult

/-- The type a call of the function has. -/
def runtimeResultType (function : RuntimeFunction) : Ty :=
  match runtimeResult function with
  | .noResult => unitType
  | .textResult => stringType
  | .truthResult => boolType

/-- Whether a call does something that can be observed apart from its result. -/
def runtimeObservable (function : RuntimeFunction) : Bool := function = .consoleWrite

/-- Leaf spelling of the type of an argument, empty for a type that is not a plain name. -/
def argumentSpelling : Ty → String
  | .namedType [name] [] => name
  | _ => ""

/-- Whether an argument of the given type may stand where the parameter is. -/
def runtimeAccepts (parameter : RuntimeParameter) (valueType : Ty) : Bool :=
  let spelling := argumentSpelling valueType
  match parameter with
  | .signedParameter => ["byte", "short", "long", "int"].contains spelling
  | .unsignedParameter => ["ubyte", "ushort", "ulong", "uint"].contains spelling
  | .floatingParameter => ["sfloat", "lfloat", "float"].contains spelling
  | .boolParameter => spelling = "bool"
  | .charParameter => spelling = "char"
  | .textParameter => spelling = "String"
  | .countParameter => spelling = "int"

/-- Why a runtime call is malformed. -/
inductive RuntimeDefect
  | defectiveIdentity | defectiveArity | defectiveArgument | defectiveResult
  deriving DecidableEq, Repr

/-- Check a runtime call: the function it names, the types of its arguments, the type of the call. -/
def runtimeCallDefect (named : Option RuntimeFunction) (arguments : List Ty) (resultType : Ty) :
    Option RuntimeDefect :=
  match named with
  | none => some .defectiveIdentity
  | some function =>
      if arguments.length ≠ (runtimeParameters function).length then some .defectiveArity
      else if !(List.zipWith runtimeAccepts (runtimeParameters function) arguments).all id then
        some .defectiveArgument
      else if resultType ≠ runtimeResultType function then some .defectiveResult
      else none

/-- What is wrong with a call, in the words every stage reports. -/
def runtimeDefectText : RuntimeDefect → String
  | .defectiveIdentity =>
      "runtime call must begin with an integer literal that names a function of the runtime catalog"
  | .defectiveArity => "runtime call has the wrong number of arguments for its function"
  | .defectiveArgument => "runtime call argument has a type its function does not take"
  | .defectiveResult => "runtime call does not have the type its function returns"

/-- **A call without a defect**: it names a function, its arguments fit the row of the catalog
position by position, and it has the type the function returns. -/
theorem runtimeCallDefect_eq_none {named : Option RuntimeFunction} {arguments : List Ty} {resultType : Ty} :
    runtimeCallDefect named arguments resultType = none ↔
      ∃ function, named = some function ∧
        List.Forall₂ (fun p t => runtimeAccepts p t = true) (runtimeParameters function) arguments ∧
        resultType = runtimeResultType function := by
  cases named with
  | none => simp [runtimeCallDefect]
  | some function =>
      simp only [runtimeCallDefect, Option.some.injEq, exists_eq_left']
      generalize runtimeParameters function = parameters
      by_cases hlen : arguments.length = parameters.length
      · have hall : (List.zipWith runtimeAccepts parameters arguments).all id = true ↔
            List.Forall₂ (fun p t => runtimeAccepts p t = true) parameters arguments := by
          clear resultType
          induction parameters generalizing arguments with
          | nil => cases arguments <;> simp_all
          | cons p ps ih =>
              cases arguments with
              | nil => simp at hlen
              | cons t ts =>
                  have ih' := @ih ts (by simpa using hlen)
                  simp only [List.zipWith_cons_cons, List.all_cons, id, Bool.and_eq_true,
                    List.forall₂_cons, ih']
        rw [if_neg (by simp [hlen])]
        by_cases hz : (List.zipWith runtimeAccepts parameters arguments).all id = true
        · simp [hz, hall.mp hz]
        · have hz' : ¬ List.Forall₂ (fun p t => runtimeAccepts p t = true) parameters arguments :=
            fun hf => hz (hall.mpr hf)
          simp [hz, hz']
      · have hf : ¬ List.Forall₂ (fun p t => runtimeAccepts p t = true) parameters arguments :=
          fun hf => hlen hf.length_eq.symm
        simp [hlen, hf]

end Tala.Core
