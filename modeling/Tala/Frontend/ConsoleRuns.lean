import Tala.Frontend.ConsoleCalls

/-!
# `Frontend.ConsoleRuns` — what a rewritten console call does

`evaluate` runs the typed tree: runtime calls apply their function to their operands, in order, and every other
form is left to the machine. The call of a format evaluates its arguments once each, in the order they are
written, and its text is the concatenation of its pieces, each conversion applied to the argument at its place.
-/

namespace Tala.Frontend.Console

open Tala Tala.Syntax Tala.Core Tala.Library.Codec

/-! ## Running a tree -/

/-- What the runtime and the rest of the language do: the other forms of the tree, and a write to a stream. -/
structure Machine (platform : Platform) (m : Type → Type) where
  other : Expression ResolvedName → m (Datum platform.Floating)
  writeText : Int → String → m Unit

def textContent {φ : Type} : Datum φ → String
  | .text value => value
  | _ => ""

section Evaluation

variable {platform : Platform} {m : Type → Type} [Monad m] (machine : Machine platform m)

def applyFunction (function : RuntimeFunction) (operands : List (Datum platform.Floating)) :
    m (Datum platform.Floating) :=
  match function, operands with
  | .textConcat, [left, right] => pure (.text (textContent left ++ textContent right))
  | .consoleWrite, [written, .integer target] => do
      machine.writeText target (textContent written)
      pure .unit
  | function, operands => pure (.text (platform.runtimeText function operands))

mutual

def evaluate : Expression ResolvedName → m (Datum platform.Floating)
  | .literalExpression span literal annotated =>
      match literal with
      | .integerLiteral value => pure (.integer value)
      | .stringLiteral value => pure (.text value)
      | _ => machine.other (.literalExpression span literal annotated)
  | .callExpression span callee arguments annotated =>
      match callee with
      | .nameExpression _ target _ =>
          match runtimeFunctionOfName target with
          | some function => do
              let operands ← evaluateAll arguments
              applyFunction machine function operands
          | none => machine.other (.callExpression span callee arguments annotated)
      | _ => machine.other (.callExpression span callee arguments annotated)
  | expression => machine.other expression

/-- One after the other, each once. -/
def evaluateAll : List (Expression ResolvedName) → m (List (Datum platform.Floating))
  | [] => pure []
  | expression :: rest => do
      let value ← evaluate expression
      let values ← evaluateAll rest
      pure (value :: values)

end

end Evaluation

/-! ## What a format says -/

section Meaning

variable (platform : Platform)

/-- How many arguments a size takes. -/
def stars (size : Size) : Nat := if size = .argumentSize then 1 else 0

/-- A width or a precision: absent, a number, or the argument at a place. -/
def sizeAt (data : List (Datum platform.Floating)) (position : Nat) : Size → Datum platform.Floating
  | .noSize => .integer absent
  | .fixedSize amount => .integer amount
  | .argumentSize => data.getD position .unit

/-- A conversion of a value of a type, with its flags, its width and its precision. -/
def conversionText (conversion : Conversion) (valueType : Ty) (width precision value : Datum platform.Floating) :
    String :=
  let flags : Datum platform.Floating := .integer (conversionFlagBits conversion)
  let plain := conversion.conversionFlags = [] ∧ conversion.conversionWidth = .noSize ∧
    conversion.conversionPrecision = .noSize
  let call (function : RuntimeFunction) (operand : Datum platform.Floating) :=
    platform.runtimeText function [flags, width, precision, operand]
  match conversion.conversionKind with
  | .signedDecimal => call .textFormatSigned value
  | .unsignedDecimal => call .textFormatUnsigned value
  | .hexadecimal =>
      if runtimeAccepts .signedParameter valueType then call .textFormatSigned value
      else call .textFormatUnsigned value
  | .fixedPoint => call .textFormatFloating value
  | .text => if plain then textContent value else call .textFormatString value
  | .character => call .textFormatChar value
  | .truth =>
      let word := platform.runtimeText .textFromBool [value]
      if plain then word else call .textFormatString (.text word)

/-- The place of the value of a conversion: behind its width and its precision, where they are arguments. -/
def valuePosition (conversion : Conversion) (position : Nat) : Nat :=
  position + stars conversion.conversionWidth + stars conversion.conversionPrecision

/-- The text of a piece whose first argument is the one at `position`. -/
def pieceText (types : List Ty) (data : List (Datum platform.Floating)) (position : Nat) : FormatPiece → String
  | .literalPiece literal => String.ofList literal
  | .newlinePiece => platform.runtimeText .textNewline []
  | .conversionPiece conversion =>
      conversionText platform conversion (types.getD (valuePosition conversion position) .errorType)
        (sizeAt platform data position conversion.conversionWidth)
        (sizeAt platform data (position + stars conversion.conversionWidth) conversion.conversionPrecision)
        (data.getD (valuePosition conversion position) .unit)

def pieceArguments : FormatPiece → Nat
  | .conversionPiece conversion => conversionArgumentCount conversion
  | _ => 0

/-- The texts of pieces, each behind the arguments of the pieces in front of it. -/
def pieceTexts (types : List Ty) (data : List (Datum platform.Floating)) (position : Nat) :
    List FormatPiece → List String
  | [] => []
  | piece :: later =>
      pieceText platform types data position piece :: pieceTexts types data (position + pieceArguments piece) later

def formatText (parsed : List FormatPiece) (types : List Ty) (data : List (Datum platform.Floating)) : String :=
  String.join (pieceTexts platform types data 0 parsed)

end Meaning

/-- The types the places of the arguments expect, in their order. -/
def expectedTypes (parsed : List FormatPiece) : List (Option Ty) :=
  parsed.flatMap fun piece => match piece with
    | .conversionPiece conversion =>
        List.replicate (stars conversion.conversionWidth + stars conversion.conversionPrecision) (some intType)
          ++ [expectedFor conversion.conversionKind]
    | _ => []

/-- The arguments, checked at their places. -/
def checkedArguments {source : Type} (check : CheckExpression source) (parsed : List FormatPiece)
    (values : List (Argument source)) : List Checked :=
  List.zipWith check (expectedTypes parsed) values

/-- What a call does once its arguments have values: its text is written to its stream, or is its value. -/
def Delivers {platform : Platform} {m : Type → Type} [Monad m] (machine : Machine platform m) (target : Option Int)
    (tree : Expression ResolvedName) (run : m String) : Prop :=
  match target with
  | some stream => evaluate machine tree = do
      let written ← run
      machine.writeText stream written
      pure .unit
  | none => textContent <$> evaluate machine tree = run

/-! ## Evaluation, form by form -/

section Forms

variable {platform : Platform} {m : Type → Type} [Monad m] {machine : Machine platform m} {span : SourceSpan}

@[simp] theorem evaluate_integer (value : Int) : evaluate machine (integer span value) = pure (.integer value) := rfl

@[simp] theorem evaluate_text (value : String) : evaluate machine (text span value) = pure (.text value) := rfl

@[simp] theorem evaluateAll_nil : evaluateAll machine [] = pure [] := rfl

@[simp] theorem evaluateAll_cons (expression : Expression ResolvedName) (rest : List (Expression ResolvedName)) :
    evaluateAll machine (expression :: rest)
      = evaluate machine expression >>= fun value => evaluateAll machine rest >>= fun values =>
          pure (value :: values) := rfl

theorem evaluate_runtimeCall (function : RuntimeFunction) (arguments : List (Expression ResolvedName)) :
    evaluate machine (runtimeCall span function arguments)
      = evaluateAll machine arguments >>= applyFunction machine function := by
  rw [runtimeCall, evaluate]
  simp only [runtimeFunctionOfName_runtimeName]

/-- A runtime call whose result is text. -/
theorem evaluate_textCall {function : RuntimeFunction} {arguments : List (Expression ResolvedName)}
    {result : List (Datum platform.Floating) → Datum platform.Floating}
    (h : ∀ operands, applyFunction machine function operands = pure (result operands)) :
    evaluate machine (runtimeCall span function arguments)
      = evaluateAll machine arguments >>= fun operands => pure (result operands) := by
  rw [evaluate_runtimeCall]
  exact congrArg _ (funext h)

variable [LawfulMonad m]

theorem evaluateAll_append (first second : List (Expression ResolvedName)) :
    evaluateAll machine (first ++ second)
      = evaluateAll machine first >>= fun values => evaluateAll machine second >>= fun others =>
          pure (values ++ others) := by
  induction first with
  | nil => simp
  | cons expression rest ih =>
      rw [List.cons_append, evaluateAll_cons, ih]
      simp only [evaluateAll_cons, bind_assoc, pure_bind, List.cons_append]

/-- Joining evaluates from left to right. -/
theorem evaluate_joined (first : Expression ResolvedName) (rest : List (Expression ResolvedName)) :
    (textContent <$> evaluate machine
        (rest.foldl (fun whole part => runtimeCall span .textConcat [whole, part]) first))
      = evaluateAll machine (first :: rest) >>= fun values => pure (String.join (values.map textContent)) := by
  induction rest generalizing first with
  | nil => simp [String.join]
  | cons part rest ih =>
      rw [List.foldl_cons, ih]
      simp only [evaluateAll_cons, evaluate_runtimeCall, evaluateAll_nil, bind_assoc, pure_bind, applyFunction]
      simp [String.join, textContent, List.foldl_map]

end Forms

/-! ## One conversion -/

section Conversions

variable {platform : Platform} {m : Type → Type} [Monad m] [LawfulMonad m] {machine : Machine platform m}
  {source : Type} {check : CheckExpression source} {callSpan : SourceSpan}

/-- A size evaluates the arguments it takes. -/
theorem sizeArgument_runs {written : Size} {values after : List (Argument source)}
    {tree : Expression ResolvedName} (h : sizeArgument check callSpan written values = (tree, after, []))
    (hcount : stars written ≤ values.length) :
    ∃ used, values = used ++ after ∧ used.length = stars written ∧
      evaluate machine tree = evaluateAll machine (used.map fun argument => (check (some intType) argument).1)
        >>= fun operands => pure (sizeAt platform operands 0 written) := by
  cases written with
  | noSize =>
      cases h
      exact ⟨[], rfl, rfl, by simp [sizeAt]⟩
  | fixedSize amount =>
      cases h
      exact ⟨[], rfl, rfl, by simp [sizeAt]⟩
  | argumentSize =>
      cases values with
      | nil => exact absurd hcount (Nat.not_succ_le_zero 0)
      | cons argument remaining =>
          simp only [sizeArgument, Prod.mk.injEq] at h
          obtain ⟨rfl, rfl, -⟩ := h
          exact ⟨[argument], rfl, rfl, by simp [sizeAt]⟩

variable {tree : Expression ResolvedName}

omit [LawfulMonad m] in
theorem sizeArgument_noSize {written : Size} {values after : List (Argument source)}
    {problems : List TypeCheckerDiagnostic}
    (h : sizeArgument check callSpan written values = (tree, after, problems)) (hnone : written = .noSize) :
    ∃ amount, evaluate machine tree = pure amount := by
  rw [hnone] at h
  cases h
  exact ⟨_, rfl⟩

/-- A conversion that is accepted evaluates its width, its precision and its value, and applies itself. -/
theorem converted_runs {value : Conversion} {width precision typed piece : Expression ResolvedName} {valueType : Ty}
    {problems : List TypeCheckerDiagnostic}
    (h : converted value width precision typed valueType problems = (piece, [])) (htyped : valueType ≠ .errorType)
    (hwidth : value.conversionWidth = .noSize → ∃ amount, evaluate machine width = pure amount)
    (hprecision : value.conversionPrecision = .noSize → ∃ amount, evaluate machine precision = pure amount) :
    (evaluate machine piece >>= fun result => pure (textContent result))
      = evaluate machine width >>= fun widthValue => evaluate machine precision >>= fun precisionValue =>
          evaluate machine typed >>= fun operand =>
            pure (conversionText platform value valueType widthValue precisionValue operand) := by
  have hcall : ∀ {span : SourceSpan} {function : RuntimeFunction} {operand : Expression ResolvedName},
      (∀ operands : List (Datum platform.Floating),
        applyFunction machine function operands = pure (.text (platform.runtimeText function operands))) →
      (evaluate machine (runtimeCall span function
          [integer span (conversionFlagBits value), width, precision, operand]) >>= fun result =>
            pure (textContent result))
        = evaluate machine width >>= fun widthValue => evaluate machine precision >>= fun precisionValue =>
            evaluate machine operand >>= fun operandValue =>
              pure (platform.runtimeText function
                [.integer (conversionFlagBits value), widthValue, precisionValue, operandValue]) := by
    intro span function operand hfunction
    rw [evaluate_textCall hfunction]
    simp [textContent]
  have hplain : ∀ {α : Type} (next : m α), (value.conversionFlags = [] ∧ value.conversionWidth = .noSize ∧
      value.conversionPrecision = .noSize) →
      (evaluate machine width >>= fun _ => evaluate machine precision >>= fun _ => next) = next := by
    intro α next hnone
    obtain ⟨amount, hamount⟩ := hwidth hnone.2.1
    obtain ⟨amount', hamount'⟩ := hprecision hnone.2.2
    rw [hamount, hamount']
    simp
  simp only [converted, if_neg htyped] at h
  split at h
  · simp at h
  · split at h
    · next hkind =>
        split at h
        · cases h
          simp only [conversionText, hkind]
          exact hcall fun _ => rfl
        · simp at h
    · next hkind =>
        split at h
        · cases h
          simp only [conversionText, hkind]
          exact hcall fun _ => rfl
        · simp at h
    · next hkind =>
        split at h
        · next hsigned =>
            cases h
            simp only [conversionText, hkind, hsigned, if_true]
            exact hcall fun _ => rfl
        · next hsigned =>
            split at h
            · cases h
              simp only [conversionText, hkind, hsigned]
              exact hcall fun _ => rfl
            · simp at h
    · next hkind =>
        split at h
        · cases h
          simp only [conversionText, hkind]
          exact hcall fun _ => rfl
        · simp at h
    · next hkind =>
        split at h
        · simp at h
        · split at h
          · next hnone =>
              cases h
              simp only [conversionText, hkind, if_pos hnone]
              exact (hplain _ hnone).symm
          · next hnone =>
              cases h
              simp only [conversionText, hkind, if_neg hnone]
              exact hcall fun _ => rfl
    · next hkind =>
        split at h
        · cases h
          simp only [conversionText, hkind]
          exact hcall fun _ => rfl
        · simp at h
    · next hkind =>
        have hword : ∀ span, evaluate machine (runtimeCall span .textFromBool [typed])
            = evaluate machine typed >>= fun operand =>
                pure (.text (platform.runtimeText .textFromBool [operand])) := by
          intro span
          have hfunction : ∀ operands : List (Datum platform.Floating), applyFunction machine .textFromBool operands
              = pure (.text (platform.runtimeText .textFromBool operands)) := fun _ => rfl
          rw [evaluate_textCall hfunction]
          simp
        split at h
        · simp at h
        · split at h
          · next hnone =>
              cases h
              simp only [conversionText, hkind, if_pos hnone]
              rw [hplain _ hnone, hword]
              simp [textContent]
          · next hnone =>
              cases h
              simp only [conversionText, hkind, if_neg hnone]
              rw [hcall fun _ => rfl]
              simp [hword]

end Conversions

/-! ## Whole formats -/

section Formats

variable {platform : Platform} {m : Type → Type} [Monad m] [LawfulMonad m] {machine : Machine platform m}
  {source : Type} {check : CheckExpression source} {callSpan : SourceSpan}
  {trees : List (Expression ResolvedName)} {value : Conversion}

/-- Only results of the right number come out of an evaluation. -/
theorem evaluateAll_congr {α : Type} {first second : List (Datum platform.Floating) → m α}
    (h : ∀ results, results.length = trees.length → first results = second results) :
    (evaluateAll machine trees >>= first) = evaluateAll machine trees >>= second := by
  induction trees generalizing first second with
  | nil => simpa using h [] rfl
  | cons tree rest ih =>
      simp only [evaluateAll_cons, bind_assoc, pure_bind]
      congr 1
      funext value
      exact ih fun results hlength => h (value :: results) (by simp [hlength])

theorem zipWith_replicate {expected : Option Ty} (values : List (Argument source)) (count : Nat)
    (h : values.length = count) :
    List.zipWith check (List.replicate count expected) values = values.map (check expected) := by
  induction values generalizing count with
  | nil => simp
  | cons argument rest ih =>
      subst h
      rw [List.length_cons, List.replicate_succ, List.zipWith_cons_cons, ih _ rfl, List.map_cons]

theorem conversionArgumentCount_eq (conversion : Conversion) :
    conversionArgumentCount conversion
      = stars conversion.conversionWidth + stars conversion.conversionPrecision + 1 := by
  unfold conversionArgumentCount stars
  by_cases hwidth : conversion.conversionWidth = .argumentSize <;>
    by_cases hprecision : conversion.conversionPrecision = .argumentSize <;> simp [hwidth, hprecision]

/-- The arguments of a conversion, and those behind it. -/
theorem checkedArguments_conversion {later : List FormatPiece}
    {sizes remaining : List (Argument source)} {argument : Argument source}
    (h : sizes.length = stars value.conversionWidth + stars value.conversionPrecision) :
    checkedArguments check (.conversionPiece value :: later) (sizes ++ argument :: remaining)
      = sizes.map (check (some intType)) ++ check (expectedFor value.conversionKind) argument ::
          checkedArguments check later remaining := by
  rw [checkedArguments, expectedTypes, List.flatMap_cons, List.append_assoc, List.zipWith_append]
  · rw [zipWith_replicate sizes _ h]
    rfl
  · rw [List.length_replicate, h]

/-- A size that is an argument is the one at its place. -/
theorem sizeAt_append {before operands after : List (Datum platform.Floating)} {written : Size}
    (h : operands.length = stars written) :
    sizeAt platform (before ++ (operands ++ after)) before.length written = sizeAt platform operands 0 written := by
  cases written with
  | noSize => rfl
  | fixedSize amount => rfl
  | argumentSize =>
      cases operands with
      | nil => cases h
      | cons operand rest => simp [sizeAt]

/-- The text of a conversion, from the arguments it takes. -/
theorem pieceText_conversion {types sizeTypes laterTypes : List Ty} {valueType : Ty}
    {data widths precisions later : List (Datum platform.Floating)} {operand : Datum platform.Floating}
    (hwidths : widths.length = stars value.conversionWidth)
    (hprecisions : precisions.length = stars value.conversionPrecision)
    (htypes : sizeTypes.length = stars value.conversionWidth + stars value.conversionPrecision)
    (hlength : types.length = data.length) :
    pieceText platform (types ++ (sizeTypes ++ valueType :: laterTypes))
        (data ++ (widths ++ (precisions ++ operand :: later))) data.length (.conversionPiece value)
      = conversionText platform value valueType (sizeAt platform widths 0 value.conversionWidth)
          (sizeAt platform precisions 0 value.conversionPrecision) operand := by
  have hwidth := @sizeAt_append platform data widths (precisions ++ operand :: later) _ hwidths
  have hprecision := @sizeAt_append platform (data ++ widths) precisions (operand :: later) _ hprecisions
  have hposition : (data ++ widths).length = data.length + stars value.conversionWidth := by
    rw [List.length_append, hwidths]
  rw [hposition, List.append_assoc] at hprecision
  have hvalue : (data ++ (widths ++ (precisions ++ operand :: later))).getD
      (valuePosition value data.length) .unit = operand := by
    rw [valuePosition, ← hwidths, ← hprecisions]
    simp [List.getD_eq_getElem?_getD, Nat.add_assoc]
  have htype : (types ++ (sizeTypes ++ valueType :: laterTypes)).getD
      (valuePosition value data.length) .errorType = valueType := by
    rw [valuePosition, ← hlength, Nat.add_assoc, ← htypes]
    simp [List.getD_eq_getElem?_getD]
  rw [pieceText, hwidth, hprecision, hvalue, htype]

/-- Text in front of what is converted. -/
theorem plain_runs {piece : Expression ResolvedName} {rest : List (Expression ResolvedName)} {line : String}
    {texts : List (Datum platform.Floating) → List String} (hpiece : evaluate machine piece = pure (.text line))
    (hrest : (evaluateAll machine rest >>= fun results => pure (results.map textContent))
      = evaluateAll machine trees >>= fun operands => pure (texts operands)) :
    (evaluateAll machine (piece :: rest) >>= fun results => pure (results.map textContent))
      = evaluateAll machine trees >>= fun operands => pure (line :: texts operands) := by
  have hcons := congrArg (fun run => run >>= fun lines => pure (line :: lines)) hrest
  simp only [bind_assoc, pure_bind] at hcons
  rw [← hcons]
  simp only [evaluateAll_cons, hpiece, bind_assoc, pure_bind, List.map_cons, textContent]

/-- **A format that is converted** evaluates the arguments of its pieces in their order, and its results are the
texts of the pieces. `types` and `data` belong to the arguments in front of these pieces. -/
theorem convert_runs {formatSpan : SourceSpan} {parsed : List FormatPiece} {values : List (Argument source)}
    {trees : List (Expression ResolvedName)} (h : convert check callSpan formatSpan parsed values = (trees, []))
    (hcount : (parsed.map pieceArguments).sum = values.length)
    (htyped : ∀ checked ∈ checkedArguments check parsed values, checked.2.1 ≠ .errorType)
    (types : List Ty) (data : List (Datum platform.Floating)) (hlength : types.length = data.length) :
    (evaluateAll machine trees >>= fun results => pure (results.map textContent))
      = evaluateAll machine ((checkedArguments check parsed values).map fun checked => checked.1)
        >>= fun operands => pure (pieceTexts platform
          (types ++ (checkedArguments check parsed values).map fun checked => checked.2.1) (data ++ operands)
          data.length parsed) := by
  induction parsed generalizing values trees types data with
  | nil =>
      cases h
      simp [checkedArguments, expectedTypes, pieceTexts]
  | cons piece later ih =>
      cases piece with
      | literalPiece literal =>
          simp only [convert, Prod.mk.injEq] at h
          obtain ⟨rfl, hproblems⟩ := h
          have hcount' : (later.map pieceArguments).sum = values.length := by
            simpa [pieceArguments] using hcount
          exact plain_runs rfl (ih (Prod.ext rfl hproblems) hcount' htyped types data hlength)
      | newlinePiece =>
          simp only [convert, Prod.mk.injEq] at h
          obtain ⟨rfl, hproblems⟩ := h
          have hcount' : (later.map pieceArguments).sum = values.length := by
            simpa [pieceArguments] using hcount
          have hnewline : evaluate machine (runtimeCall formatSpan .textNewline [])
              = pure (.text (platform.runtimeText .textNewline [])) := by
            rw [evaluate_runtimeCall, evaluateAll_nil, pure_bind]
            rfl
          exact plain_runs hnewline (ih (Prod.ext rfl hproblems) hcount' htyped types data hlength)
      | conversionPiece value =>
          rw [List.map_cons, List.sum_cons] at hcount
          have hneeded : stars value.conversionWidth + stars value.conversionPrecision + 1
              + (later.map pieceArguments).sum = values.length := by
            rw [← conversionArgumentCount_eq]
            exact hcount
          simp only [convert] at h
          obtain ⟨⟨width, afterWidth, widthProblems⟩, hwidth⟩ : ∃ found,
            sizeArgument check callSpan value.conversionWidth values = found := ⟨_, rfl⟩
          obtain ⟨⟨precision, afterPrecision, precisionProblems⟩, hprecision⟩ : ∃ found,
            sizeArgument check callSpan value.conversionPrecision afterWidth = found := ⟨_, rfl⟩
          simp only [hwidth, hprecision] at h
          -- both sizes are there, and report nothing
          have hsilent : widthProblems = [] ∧ precisionProblems = [] := by
            cases afterPrecision with
            | nil =>
                have hnone := (Prod.mk.inj h).2
                exact List.append_eq_nil_iff.mp hnone
            | cons argument remaining =>
                have hnone := (Prod.mk.inj h).2
                simp only [List.append_eq_nil_iff] at hnone
                exact hnone.1.1
          obtain ⟨rfl, rfl⟩ := hsilent
          obtain ⟨widths, hvalues, hwidths, hwidthRun⟩ :=
            @sizeArgument_runs platform m _ _ machine source check callSpan _ _ _ _ hwidth (by omega)
          have hleft := congrArg List.length hvalues
          rw [List.length_append] at hleft
          obtain ⟨precisions, hafter, hprecisions, hprecisionRun⟩ :=
            @sizeArgument_runs platform m _ _ machine source check callSpan _ _ _ _ hprecision (by omega)
          have hleft' := congrArg List.length hafter
          rw [List.length_append] at hleft'
          cases afterPrecision with
          | nil =>
              rw [List.length_nil] at hleft'
              omega
          | cons argument remaining =>
              obtain ⟨htrees, hproblems⟩ := Prod.mk.inj h
              simp only [List.append_eq_nil_iff] at hproblems
              obtain ⟨⟨-, hconverted⟩, hrest⟩ := hproblems
              rw [List.length_cons] at hleft'
              have hsizes : (widths ++ precisions).length
                  = stars value.conversionWidth + stars value.conversionPrecision := by
                rw [List.length_append, hwidths, hprecisions]
              have hchecked : checkedArguments check (.conversionPiece value :: later) values
                  = (widths ++ precisions).map (check (some intType)) ++
                      check (expectedFor value.conversionKind) argument ::
                        checkedArguments check later remaining := by
                rw [hvalues, hafter, ← List.append_assoc]
                exact checkedArguments_conversion hsizes
              rw [hchecked] at htyped ⊢
              have hvalueTyped := htyped (check (expectedFor value.conversionKind) argument) (by simp)
              have hlater := fun types data => ih (Prod.ext rfl hrest) (by omega)
                (fun checked hmem => htyped checked (by simp [hmem])) types data
              have hpiece := @converted_runs platform m _ _ machine value width precision _ _ _ _
                (Prod.ext rfl hconverted) hvalueTyped
                (fun hnone => sizeArgument_noSize hwidth hnone) (fun hnone => sizeArgument_noSize hprecision hnone)
              rw [hwidthRun, hprecisionRun] at hpiece
              simp only [bind_assoc, pure_bind] at hpiece
              rw [← htrees]
              have hcons : ∀ (tree : Expression ResolvedName) (rest : List (Expression ResolvedName)),
                  (evaluateAll machine (tree :: rest) >>= fun results => pure (results.map textContent))
                    = (evaluate machine tree >>= fun result => pure (textContent result)) >>= fun line =>
                        (evaluateAll machine rest >>= fun results => pure (results.map textContent))
                          >>= fun lines => pure (line :: lines) := by
                intro tree rest
                simp
              rw [hcons]
              rw [show converting check value width precision argument = converted value width precision
                (check (expectedFor value.conversionKind) argument).1
                (check (expectedFor value.conversionKind) argument).2.1
                (check (expectedFor value.conversionKind) argument).2.2 from rfl, hpiece]
              simp only [List.map_append, List.map_cons, List.map_map, Function.comp_def, List.append_assoc,
                evaluateAll_append, evaluateAll_cons, bind_assoc, pure_bind]
              refine evaluateAll_congr fun widthData hwidthData => ?_
              refine evaluateAll_congr fun precisionData hprecisionData => ?_
              congr 1
              funext operand
              have hwidthTypes : (widths.map fun argument => (check (some intType) argument).2.1).length
                  = stars value.conversionWidth := by rw [List.length_map, hwidths]
              have hprecisionTypes : (precisions.map fun argument => (check (some intType) argument).2.1).length
                  = stars value.conversionPrecision := by rw [List.length_map, hprecisions]
              rw [List.length_map, hwidths] at hwidthData
              rw [List.length_map, hprecisions] at hprecisionData
              -- the arguments of this conversion are in front of those of the later pieces
              have hrun := hlater (types ++ ((widths.map fun argument => (check (some intType) argument).2.1) ++
                  ((precisions.map fun argument => (check (some intType) argument).2.1) ++
                    [(check (expectedFor value.conversionKind) argument).2.1])))
                (data ++ (widthData ++ (precisionData ++ [operand]))) (by
                  simp only [List.length_append, hwidthTypes, hprecisionTypes, hwidthData, hprecisionData, hlength,
                    List.length_cons, List.length_nil])
              have hlines := congrArg (fun run => run >>= fun lines => pure
                (conversionText platform value (check (expectedFor value.conversionKind) argument).2.1
                  (sizeAt platform widthData 0 value.conversionWidth)
                  (sizeAt platform precisionData 0 value.conversionPrecision) operand :: lines)) hrun
              simp only [bind_assoc, pure_bind, List.append_assoc, List.cons_append, List.nil_append] at hlines
              rw [hlines]
              congr 1
              funext operands
              have hnext : (data ++ (widthData ++ (precisionData ++ [operand]))).length
                  = data.length + conversionArgumentCount value := by
                rw [conversionArgumentCount_eq]
                simp only [List.length_append, hwidthData, hprecisionData, List.length_cons, List.length_nil]
                omega
              rw [pieceTexts, ← List.append_assoc (widths.map _), pieceText_conversion hwidthData hprecisionData
                (by rw [List.length_append, hwidthTypes, hprecisionTypes]) hlength, hnext, List.append_assoc]
              rfl

theorem neededArguments_eq (parsed : List FormatPiece) :
    neededArguments parsed = (parsed.map pieceArguments).sum := by
  rw [neededArguments]
  congr 2

theorem length_expectedTypes (parsed : List FormatPiece) :
    (expectedTypes parsed).length = (parsed.map pieceArguments).sum := by
  induction parsed with
  | nil => rfl
  | cons piece later ih =>
      rw [expectedTypes, List.flatMap_cons, List.length_append, List.map_cons, List.sum_cons]
      congr 1
      cases piece with
      | literalPiece literal => rfl
      | newlinePiece => rfl
      | conversionPiece value =>
          rw [pieceArguments, conversionArgumentCount_eq, List.length_append, List.length_replicate]
          rfl

/-- A call is given a format, which reads as these pieces, and these arguments. -/
def GivenFormat (arguments : List (Argument source)) (parsed : List FormatPiece) (values : List (Argument source)) :
    Prop :=
  ∃ formatSpan format, arguments = .stringLiteral formatSpan format :: values ∧
    parseFormat format.toList = .ok parsed

/-- The tree evaluates its arguments, all of them, one after the other, and delivers the text of the format. -/
def RunsFormat (check : CheckExpression source) (target : Option Int) (tree : Expression ResolvedName)
    (parsed : List FormatPiece) (values : List (Argument source)) : Prop :=
  (checkedArguments check parsed values).length = values.length ∧
    ∀ (platform : Platform) (m : Type → Type) [Monad m] [LawfulMonad m] (machine : Machine platform m),
      Delivers machine target tree
        (evaluateAll machine ((checkedArguments check parsed values).map fun checked => checked.1)
          >>= fun data => pure (formatText platform parsed
            ((checkedArguments check parsed values).map fun checked => checked.2.1) data))

/-- A text that is written to a stream, or is the value. -/
theorem delivers_of_joined {target : Option Int} {joined tree : Expression ResolvedName} {run : m String}
    (hjoined : textContent <$> evaluate machine joined = run) (htree : tree = match target with
      | some stream => runtimeCall callSpan .consoleWrite [joined, integer callSpan stream]
      | none => joined) :
    Delivers machine target tree run := by
  cases target with
  | none =>
      rw [htree]
      exact hjoined
  | some stream =>
      rw [htree, Delivers, ← hjoined, evaluate_runtimeCall]
      simp only [evaluateAll_cons, evaluateAll_nil, evaluate_integer, bind_assoc, pure_bind, applyFunction,
        bind_map_left]

/-- The pieces of a format, joined and delivered. -/
theorem finish_delivers {target : Option Int}
    {tree : Expression ResolvedName} {treeType : Ty} {texts : m (List String)}
    (h : finish callSpan target trees [] = (tree, treeType, []))
    (hruns : (evaluateAll machine trees >>= fun results => pure (results.map textContent)) = texts) :
    Delivers machine target tree (texts >>= fun lines => pure (String.join lines)) := by
  cases trees with
  | nil =>
      refine @delivers_of_joined platform m _ _ machine callSpan target (text callSpan "") tree _ ?_ ?_
      · rw [← hruns]
        simp [textContent, String.join]
      · cases target <;> exact (congrArg Prod.fst h).symm
  | cons first rest =>
      refine @delivers_of_joined platform m _ _ machine callSpan target
        (rest.foldl (fun whole part => runtimeCall callSpan .textConcat [whole, part]) first) tree _ ?_ ?_
      · rw [← hruns, evaluate_joined]
        simp only [bind_assoc, pure_bind]
      · cases target <;> exact (congrArg Prod.fst h).symm

/-- **Formatted output.** The reader of formats accepts what the grammar spells, with numbers of at most nine
digits, and its pieces are the items of a spelling. A call of a format that is accepted, and whose arguments have
types, evaluates its arguments once each and in order, and delivers its pieces, each conversion applied to the
argument at its place. -/
theorem formattedOutput_exact {source : Type} (check : CheckExpression source) (callSpan : SourceSpan) :
    (∀ format : List Char, ((∃ parts, parseFormat format = .ok parts) ↔
        ∃ items : List FormatItem, (∀ item ∈ items, item.Documented ∧ item.Short) ∧ spelled items = format) ∧
      ∀ parts, parseFormat format = .ok parts →
        ∃ items : List FormatItem, (∀ item ∈ items, item.Documented ∧ item.Short) ∧ spelled items = format ∧
          atomsOf parts = itemAtoms 1 items) ∧
    ∀ member target arguments tree treeType, methods.lookup member = some (.format target) →
      checkConsoleCall check callSpan member arguments = (tree, treeType, []) →
      ∃ parsed values, GivenFormat arguments parsed values ∧
        ((∀ checked ∈ checkedArguments check parsed values, checked.2.1 ≠ .errorType) →
          RunsFormat check target tree parsed values) := by
  refine ⟨parseFormat_reads, ?_⟩
  intro member target arguments tree treeType hmethod h
  simp only [checkConsoleCall, hmethod] at h
  cases arguments with
  | nil => simp [formatted, failed] at h
  | cons first values =>
      cases first with
      | other span expression => simp [formatted, failed] at h
      | stringLiteral formatSpan format =>
          simp only [formatted] at h
          split at h
          · simp [failed] at h
          · next parsed hparsed =>
              split at h
              · simp [failed] at h
              · next hcount =>
                  refine ⟨parsed, values, ⟨formatSpan, format, rfl, hparsed⟩, fun htyped => ?_⟩
                  have hneeded : (parsed.map pieceArguments).sum = values.length := by
                    rw [← neededArguments_eq]
                    exact not_not.mp hcount
                  have hsilent : (convert check callSpan formatSpan parsed values).2 = [] := by
                    by_contra hsome
                    simp [finish, hsome, failed] at h
                  rw [hsilent] at h
                  refine ⟨?_, fun platform m _ _ machine => ?_⟩
                  · rw [checkedArguments, List.length_zipWith, length_expectedTypes, hneeded, Nat.min_self]
                  · have hruns := @convert_runs platform m _ _ machine source check callSpan formatSpan parsed
                      values _
                      (Prod.ext rfl hsilent) hneeded htyped [] [] rfl
                    have hdelivers := finish_delivers h hruns
                    simp only [bind_assoc, pure_bind, List.nil_append] at hdelivers
                    exact hdelivers

/-! ### One call -/

/-- A checker that finds a name of the given type for every argument, and reports nothing. -/
def nameOfType (valueType : Ty) : CheckExpression Unit := fun _ _ =>
  (.nameExpression emptySpan ⟨7, "value"⟩ valueType, valueType, [])

/-- `"%d"` and one argument. -/
def decimalCall : List (Argument Unit) := [.stringLiteral emptySpan "%d", .other emptySpan ()]

def decimalPieces : List FormatPiece := [.conversionPiece ⟨.signedDecimal, [], .noSize, .noSize, 1⟩]

theorem parseFormat_decimal : parseFormat "%d".toList = .ok decimalPieces := by
  have htext : "%d".toList = ['%', 'd'] := rfl
  have hread : readConversion 1 ['d'] = .ok (.conversionPiece ⟨.signedDecimal, [], .noSize, .noSize, 1⟩, 1) := rfl
  rw [parseFormat, htext, pieces, if_pos rfl, hread]
  simp [bind, Except.bind, Except.map, pieces, joined, decimalPieces]

theorem checkConsoleCall_decimal {valueType : Ty} {tree : Expression ResolvedName}
    (h : (converting (nameOfType valueType) ⟨.signedDecimal, [], .noSize, .noSize, 1⟩ (integer emptySpan absent)
      (integer emptySpan absent) (.other emptySpan ())) = (tree, [])) :
    checkConsoleCall (nameOfType valueType) emptySpan "Format" decimalCall = (tree, stringType, []) := by
  have hmethod : methods.lookup "Format" = some (.format none) := rfl
  have hneeded : neededArguments decimalPieces = 1 := rfl
  simp only [checkConsoleCall, hmethod, decimalCall, formatted, parseFormat_decimal, hneeded]
  simp only [decimalPieces, convert, sizeArgument, h]
  rfl

/-- `Format("%d", value)` of an `int` is accepted and delivers the conversion of its argument. -/
theorem formattedOutput_exact_decimal :
    ∃ tree parsed values,
      checkConsoleCall (nameOfType intType) emptySpan "Format" decimalCall = (tree, stringType, []) ∧
      GivenFormat decimalCall parsed values ∧
      ((∀ checked ∈ checkedArguments (nameOfType intType) parsed values, checked.2.1 ≠ .errorType) ∧
        RunsFormat (nameOfType intType) none tree parsed values) := by
  have haccepted := @checkConsoleCall_decimal intType _ rfl
  obtain ⟨parsed, values, hgiven, hruns⟩ := (formattedOutput_exact (nameOfType intType) emptySpan).2 "Format" none
    decimalCall _ stringType rfl haccepted
  obtain ⟨formatSpan, format, hcall, hparsed⟩ := id hgiven
  cases hcall
  rw [parseFormat_decimal] at hparsed
  cases hparsed
  have htyped : ∀ checked ∈ checkedArguments (nameOfType intType) decimalPieces [.other emptySpan ()],
      checked.2.1 ≠ .errorType := by
    intro checked hmem
    rw [List.mem_singleton.mp hmem]
    exact nofun
  exact ⟨_, _, _, haccepted, hgiven, htyped, hruns htyped⟩

/-- A number of ten digits is in the grammar and not read; and the conversion of an argument whose type is an error
that was reported elsewhere is not applied. -/
theorem tenDigits_and_errorType :
    (¬ ∀ format : List Char, (∃ parts, parseFormat format = .ok parts) ↔
      ∃ items : List FormatItem, (∀ item ∈ items, item.Documented) ∧ spelled items = format) ∧
    ¬ ∀ (check : CheckExpression Unit) (callSpan : SourceSpan) member target arguments tree treeType,
      methods.lookup member = some (.format target) →
      checkConsoleCall check callSpan member arguments = (tree, treeType, []) →
      ∃ parsed values, GivenFormat arguments parsed values ∧ RunsFormat check target tree parsed values := by
  constructor
  · intro h
    have hread : readConversion 1 ['1', '2', '3', '4', '5', '6', '7', '8', '9', '0', 'd'] = .error ⟨"TAT0075", 1,
        "a width or a precision written in a format has at most nine digits"⟩ := rfl
    have hitem : ∀ item ∈ [FormatItem.conversion [] (.number ['1', '2', '3', '4', '5', '6', '7', '8', '9', '0'])
        .absent .signedDecimal], item.Documented := by
      intro item hmem
      rw [List.mem_singleton.mp hmem]
      exact ⟨⟨List.nodup_nil, nofun, nofun, nofun, fun hsome => absurd rfl hsome⟩, ⟨nofun, List.all_eq_true.mp rfl⟩,
        fun hhead => absurd (Option.some.inj hhead) (by decide), trivial⟩
    obtain ⟨parts, hparts⟩ := (h ['%', '1', '2', '3', '4', '5', '6', '7', '8', '9', '0', 'd']).mpr ⟨_, hitem, rfl⟩
    rw [parseFormat, pieces, if_pos rfl, hread] at hparts
    cases hparts
  · intro h
    let platform : Platform := ⟨Unit, fun _ _ => (), fun _ _ _ => (), fun _ _ => 0, fun _ _ _ => false,
      fun _ => false, fun _ _ => false, fun _ _ => false, fun _ _ => "seven"⟩
    let machine : Machine platform Id := ⟨fun _ => .unit, fun _ _ => ()⟩
    have haccepted := @checkConsoleCall_decimal .errorType _ rfl
    obtain ⟨parsed, values, ⟨formatSpan, format, hgiven, hparsed⟩, -, hruns⟩ :=
      h (nameOfType .errorType) emptySpan "Format" none decimalCall _ stringType rfl haccepted
    cases hgiven
    rw [parseFormat_decimal] at hparsed
    cases hparsed
    have hdelivers : "" = "seven" := hruns platform Id machine
    exact absurd hdelivers (by decide)

end Formats

end Tala.Frontend.Console
