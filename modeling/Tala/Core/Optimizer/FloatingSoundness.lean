import Tala.Core.Optimizer.FloatingSpelling

/-!
# `Core.Optimizer.FloatingSoundness` — folding is IEEE arithmetic

Each operation on data is the standard's, and a folded primitive is a literal that stands for its result
(`foldFloatingPrimitive_sound`). Rounded division is the exception by design: it gives the integer nearest
to the rounded quotient, with halves away from zero, where that integer fits.
-/

namespace Tala.Core.Optimizer.Floating

open Tala Tala.Core Tala.Library.BinaryFloat

/-! ## Operations -/

section Operations

variable {format : BinaryFormat} {left right result : FloatingValue}

theorem signedMagnitude_eq (negative : Bool) (value : ℚ) :
    signedMagnitude negative value = Library.BinaryFloat.signed negative value := rfl

theorem negateValue_eq (value : FloatingValue) : negateValue value = value.negate := by
  cases value <;> rfl

theorem holds_negate (h : format.Holds left) : format.Holds left.negate := by
  cases left with
  | notANumber => exact h
  | infinity negative => exact h
  | finite negative magnitude => exact h

theorem rounds_self {negative : Bool} {magnitude : ℚ} (h : format.Holds (.finite negative magnitude)) :
    format.Rounds negative magnitude (.finite negative magnitude) := by
  have hrounds := rounds_of_nearest (nearest_self h.1) negative
  rwa [if_neg (not_le.mpr h.2)] at hrounds

/-- Magnitudes with one sign cancel only when both are zero. -/
theorem zero_of_sum {s : Bool} {x y : ℚ} (hx : 0 ≤ x) (hy : 0 ≤ y)
    (h : Library.BinaryFloat.signed s x + Library.BinaryFloat.signed s y = 0) : x = 0 ∧ y = 0 := by
  unfold Library.BinaryFloat.signed at h
  cases s with
  | false =>
      simp only [Bool.false_eq_true, if_false] at h
      exact ⟨by linarith, by linarith⟩
  | true =>
      simp only [if_true] at h
      exact ⟨by linarith, by linarith⟩

theorem addFloating_isSum (hleft : format.Holds left) (hright : format.Holds right)
    (h : addFloating format left right = some result) : format.IsSum left right result := by
  cases left with
  | notANumber =>
      cases h
      rfl
  | infinity s =>
      cases right with
      | notANumber =>
          cases h
          rfl
      | infinity t =>
          change (if s = t then some _ else some _) = some result at h
          show result = if s = t then _ else _
          split at h
          · next heq =>
            cases h
            rw [if_pos heq]
          · next hne =>
            cases h
            rw [if_neg hne]
      | finite t y =>
          cases h
          rfl
  | finite s x =>
      cases right with
      | notANumber =>
          cases h
          rfl
      | infinity t =>
          cases h
          rfl
      | finite t y =>
          have hsum := Option.some.inj h
          show format.Rounds (if Library.BinaryFloat.signed s x + Library.BinaryFloat.signed t y = 0 then _
            else _) |Library.BinaryFloat.signed s x + Library.BinaryFloat.signed t y| result
          rw [signedMagnitude_eq, signedMagnitude_eq] at hsum
          obtain ⟨exact, hexact⟩ :
              ∃ exact, Library.BinaryFloat.signed s x + Library.BinaryFloat.signed t y = exact := ⟨_, rfl⟩
          have hsign : (if exact = 0 then exact = 0 && x = 0 && y = 0 && s && t else decide (exact < 0))
              = if exact = 0 then s && t else decide (exact < 0) := by
            split
            · next hzero =>
              -- equal signs leave only zeros
              cases s <;> cases t <;> simp only [Bool.and_false, Bool.and_true]
              obtain ⟨rfl, rfl⟩ := zero_of_sum hleft.1.nonneg hright.1.nonneg (hexact.trans hzero)
              simp [hzero]
            · rfl
          rw [hexact] at hsum ⊢
          rw [hsign] at hsum
          rw [← hsum]
          exact roundToFormat_rounds format _ (abs_nonneg exact)

theorem subtractFloating_isDifference (hleft : format.Holds left) (hright : format.Holds right)
    (h : subtractFloating format left right = some result) : format.IsDifference left right result := by
  unfold subtractFloating at h
  rw [negateValue_eq] at h
  exact addFloating_isSum hleft (holds_negate hright) h

theorem multiplyFloating_isProduct (hleft : format.Holds left) (hright : format.Holds right)
    (h : multiplyFloating format left right = some result) : format.IsProduct left right result := by
  cases left with
  | notANumber =>
      cases h
      rfl
  | infinity s =>
      cases right with
      | notANumber =>
          cases h
          rfl
      | infinity t =>
          cases h
          rfl
      | finite t y =>
          change (if y = 0 then some _ else some _) = some result at h
          show result = if y = 0 then _ else _
          split at h
          · next hzero =>
            cases h
            rw [if_pos hzero]
          · next hne =>
            cases h
            rw [if_neg hne]
  | finite s x =>
      cases right with
      | notANumber =>
          cases h
          rfl
      | infinity t =>
          change (if x = 0 then some _ else some _) = some result at h
          show result = if x = 0 then _ else _
          split at h
          · next hzero =>
            cases h
            rw [if_pos hzero]
          · next hne =>
            cases h
            rw [if_neg hne]
      | finite t y =>
          cases h
          exact roundToFormat_rounds format _ (mul_nonneg hleft.1.nonneg hright.1.nonneg)

theorem divideFloating_isQuotient (hleft : format.Holds left) (hright : format.Holds right)
    (h : divideFloating format left right = some result) : format.IsQuotient left right result := by
  cases left with
  | notANumber =>
      cases h
      rfl
  | infinity s =>
      cases right with
      | notANumber =>
          cases h
          rfl
      | infinity t =>
          cases h
          rfl
      | finite t y =>
          cases h
          rfl
  | finite s x =>
      cases right with
      | notANumber =>
          cases h
          rfl
      | infinity t =>
          cases h
          rfl
      | finite t y =>
          change (if x = 0 && y = 0 then some _ else if y = 0 then some _ else if x = 0 then some _
            else some _) = some result at h
          show if y = 0 then result = (if x = 0 then _ else _) else format.Rounds (s != t) (x / y) result
          split at h
          · next hzeros =>
            simp only [Bool.and_eq_true, decide_eq_true_eq] at hzeros
            cases h
            rw [if_pos hzeros.2, if_pos hzeros.1]
          next hnotboth =>
          simp only [Bool.and_eq_true, decide_eq_true_eq, not_and] at hnotboth
          split at h
          · next hzero =>
            cases h
            rw [if_pos hzero, if_neg (fun hx => hnotboth hx hzero)]
          next hy =>
          rw [if_neg hy]
          split at h
          · next hx =>
            cases h
            rw [hx, zero_div]
            exact rounds_zero format _
          · cases h
            exact roundToFormat_rounds format _ (div_nonneg hleft.1.nonneg hright.1.nonneg)

/-- The quotient of the parts of a ratio is its floor. -/
theorem tdiv_eq_floor {value : ℚ} (h : 0 ≤ value) : value.num.tdiv value.den = ⌊value⌋ := by
  rw [Int.tdiv_eq_ediv_of_nonneg (Rat.num_nonneg.mpr h), Rat.floor_def']

theorem remainderFloating_isRemainder (hleft : format.Holds left) (hright : format.Holds right)
    (h : remainderFloating format left right = some result) : format.IsRemainder left right result := by
  cases left with
  | notANumber =>
      cases h
      rfl
  | infinity s =>
      cases right with
      | notANumber =>
          cases h
          rfl
      | infinity t =>
          cases h
          rfl
      | finite t y =>
          cases h
          rfl
  | finite s x =>
      cases right with
      | notANumber =>
          cases h
          rfl
      | infinity t =>
          cases h
          exact (roundToFormat_rounds format s hleft.1.nonneg).unique (rounds_self hleft)
      | finite t y =>
          change (if y = 0 then some _ else if x = 0 then some _ else some _) = some result at h
          show if y = 0 then result = _ else format.Rounds s (x - ⌊x / y⌋ * y) result
          split at h
          · next hzero =>
            cases h
            rw [if_pos hzero]
          next hy =>
          rw [if_neg hy]
          have hypos : 0 < y := lt_of_le_of_ne hright.1.nonneg (Ne.symm hy)
          split at h
          · next hx =>
            cases h
            rw [hx, zero_div, Int.floor_zero, Int.cast_zero, zero_mul, sub_zero]
            exact rounds_zero format s
          · cases h
            have hquotient : 0 ≤ x / y := div_nonneg hleft.1.nonneg hright.1.nonneg
            rw [tdiv_eq_floor hquotient]
            refine roundToFormat_rounds format s ?_
            have := (le_div_iff₀ hypos).mp (Int.floor_le (x / y))
            linarith

/-- Rounding a ratio to the nearest integer, halves away from zero. -/
theorem roundRatioAwayFromZero_spec (value : ℚ) : NearestAwayFromZero value (roundRatioAwayFromZero value) := by
  obtain ⟨hwhole, hremainder, hlt, heq⟩ := ratio_parts (abs_nonneg value)
  have hden : (0 : ℚ) < |value|.den := by exact_mod_cast |value|.den_pos
  unfold roundRatioAwayFromZero
  dsimp only
  generalize |value|.num.tdiv |value|.den = whole at *
  generalize |value|.num.tmod |value|.den = remainder at *
  have hwhole' : (0 : ℚ) ≤ whole := by exact_mod_cast hwhole
  have hremainder' : (0 : ℚ) ≤ remainder := by exact_mod_cast hremainder
  -- the rounded magnitude, without its sign
  obtain ⟨rounded, hrounded, hnonneg, hhalf, htie⟩ : ∃ rounded : Int,
      (if 2 * remainder ≥ |value|.den then whole + 1 else whole) = rounded ∧ (0 : ℚ) ≤ rounded ∧
        |(|value| - rounded)| ≤ 1 / 2 ∧ (|(|value| - rounded)| = 1 / 2 → |value| < rounded) := by
    have hvalue : |value| = whole + remainder / |value|.den := by
      field_simp
      linarith
    have hfraction : (0 : ℚ) ≤ remainder / |value|.den := by positivity
    have hone : (remainder : ℚ) / |value|.den < 1 := by
      rw [div_lt_one hden]
      exact_mod_cast hlt
    by_cases hup : 2 * remainder ≥ |value|.den
    · have hmore : (1 : ℚ) / 2 ≤ remainder / |value|.den := by
        rw [le_div_iff₀ hden]
        have : ((|value|.den : Int) : ℚ) ≤ (2 * remainder : Int) := by exact_mod_cast hup
        push_cast at this
        linarith
      refine ⟨whole + 1, if_pos hup, by push_cast; linarith, ?_, fun _ => by push_cast; linarith⟩
      push_cast
      rw [abs_of_nonpos] <;> linarith
    · have hless : (remainder : ℚ) / |value|.den < 1 / 2 := by
        rw [div_lt_iff₀ hden]
        have : ((2 * remainder : Int) : ℚ) < (|value|.den : Int) := by exact_mod_cast not_le.mp hup
        push_cast at this
        linarith
      have hdistance : |(|value| - (whole : ℚ))| = remainder / |value|.den := by
        rw [abs_of_nonneg] <;> linarith
      refine ⟨whole, if_neg hup, hwhole', ?_, ?_⟩
      · rw [hdistance]
        exact hless.le
      · intro htie
        rw [hdistance] at htie
        linarith
  rw [hrounded]
  unfold NearestAwayFromZero
  rcases lt_or_ge value 0 with hneg | hpos
  · rw [if_pos (by simpa using hneg)]
    rw [abs_of_neg hneg] at hhalf htie
    have hflip : |value - ((-rounded : Int) : ℚ)| = |(-value - rounded)| := by
      rw [← abs_neg]
      push_cast
      congr 1
      ring
    rw [hflip, abs_of_neg hneg]
    refine ⟨hhalf, fun heq => ?_⟩
    push_cast
    rw [abs_neg, abs_of_nonneg hnonneg]
    exact htie heq
  · rw [if_neg (by simpa using hpos)]
    rw [abs_of_nonneg hpos] at hhalf htie
    refine ⟨hhalf, fun heq => ?_⟩
    rw [abs_of_nonneg hpos, abs_of_nonneg hnonneg]
    exact htie heq

/-! ## Comparisons -/

/-- Ordered data compare as their places do. -/
theorem compareFloating_spec (left right : FloatingValue) :
    match compareFloating left right with
    | none => left.place = none ∨ right.place = none
    | some order => ∃ x y, left.place = some x ∧ right.place = some y ∧ order = compare x y := by
  cases left with
  | notANumber => exact Or.inl rfl
  | infinity s =>
      cases right with
      | notANumber => cases s <;> exact Or.inr rfl
      | infinity t =>
          cases s <;> cases t <;> refine ⟨_, _, rfl, rfl, ?_⟩ <;> symm
          · exact compare_eq_iff_eq.mpr rfl
          · exact compare_gt_iff_gt.mpr (WithBot.bot_lt_coe _)
          · exact compare_lt_iff_lt.mpr (WithBot.bot_lt_coe _)
          · exact compare_eq_iff_eq.mpr rfl
      | finite t y =>
          cases s <;> refine ⟨_, _, rfl, rfl, ?_⟩ <;> symm
          · exact compare_gt_iff_gt.mpr (WithBot.coe_lt_coe.mpr (WithTop.coe_lt_top _))
          · exact compare_lt_iff_lt.mpr (WithBot.bot_lt_coe _)
  | finite s x =>
      cases right with
      | notANumber => exact Or.inr rfl
      | infinity t =>
          cases t <;> refine ⟨_, _, rfl, rfl, ?_⟩ <;> symm
          · exact compare_lt_iff_lt.mpr (WithBot.coe_lt_coe.mpr (WithTop.coe_lt_top _))
          · exact compare_gt_iff_gt.mpr (WithBot.bot_lt_coe _)
      | finite t y =>
          refine ⟨_, _, rfl, rfl, ?_⟩
          rw [signedMagnitude_eq, signedMagnitude_eq]
          generalize Library.BinaryFloat.signed s x = a
          generalize Library.BinaryFloat.signed t y = b
          rcases lt_trichotomy a b with hlt | rfl | hgt
          · rw [compare_lt_iff_lt.mpr hlt, eq_comm, compare_lt_iff_lt]
            exact WithBot.coe_lt_coe.mpr (WithTop.coe_lt_coe.mpr hlt)
          · rw [compare_eq_iff_eq.mpr rfl, eq_comm, compare_eq_iff_eq]
          · rw [compare_gt_iff_gt.mpr hgt, eq_comm, compare_gt_iff_gt]
            exact WithBot.coe_lt_coe.mpr (WithTop.coe_lt_coe.mpr hgt)

/-- A test of the order answers whether the relation it stands for holds between ordered data. -/
theorem compareFloating_compares (left right : FloatingValue) (relation : Ordering → Bool)
    (meaning : WithBot (WithTop ℚ) → WithBot (WithTop ℚ) → Prop)
    (hmeaning : ∀ x y, relation (compare x y) = true ↔ meaning x y) :
    ((compareFloating left right).map relation).getD false = true ↔ left.Compares meaning right := by
  have hspec := compareFloating_spec left right
  unfold Datum.Compares
  cases hcompare : compareFloating left right with
  | none =>
      rw [hcompare] at hspec
      simp only [Option.map_none, Option.getD_none, Bool.false_eq_true, false_iff]
      rintro ⟨x, y, hx, hy, _⟩
      rcases hspec with hnone | hnone <;> simp_all
  | some order =>
      rw [hcompare] at hspec
      obtain ⟨x, y, hx, hy, rfl⟩ := hspec
      rw [Option.map_some, Option.getD_some, hmeaning]
      constructor
      · intro h
        exact ⟨x, y, hx, hy, h⟩
      · rintro ⟨x', y', hx', hy', h⟩
        rw [hx] at hx'
        rw [hy] at hy'
        cases hx'
        cases hy'
        exact h

end Operations

/-! ## Folding -/

/-- A literal of a type that stands for a datum. -/
def FloatingLiteral (format : BinaryFormat) (valueType : Ty) (datum : FloatingValue)
    (expression : CoreExpression) : Prop :=
  ∃ spelling, expression = .coreLiteral (.coreFloating spelling) valueType ∧ Spells format spelling datum

/-- A truth value that says whether something holds. -/
def TruthLiteral (holds : Prop) (expression : CoreExpression) : Prop :=
  ∃ answer, expression = .coreLiteral (.coreBoolean answer) boolType ∧ (answer = true ↔ holds)

/-- The literal a primitive folds to, on operands that stand for these data. -/
def FoldsTo (format : BinaryFormat) (resultType : Ty) :
    CorePrimitive → List FloatingValue → CoreExpression → Prop
  | .coreAdd, [left, right], folded =>
      ∃ result, format.IsSum left right result ∧ FloatingLiteral format resultType result folded
  | .coreSubtract, [left, right], folded =>
      ∃ result, format.IsDifference left right result ∧ FloatingLiteral format resultType result folded
  | .coreMultiply, [left, right], folded =>
      ∃ result, format.IsProduct left right result ∧ FloatingLiteral format resultType result folded
  | .coreDivide, [left, right], folded =>
      ∃ result, format.IsQuotient left right result ∧ FloatingLiteral format resultType result folded
  | .coreRemainder, [left, right], folded =>
      ∃ result, format.IsRemainder left right result ∧ FloatingLiteral format resultType result folded
  | .coreNegate, [value], folded => FloatingLiteral format resultType value.negate folded
  | .coreFloorDivide, [left, right], folded =>
      -- the quotient is rounded to the format first, then to an integer
      ∃ negative magnitude rounded, format.IsQuotient left right (.finite negative magnitude) ∧
        NearestAwayFromZero (Library.BinaryFloat.signed negative magnitude) rounded ∧
        integerFitsCoreType resultType rounded = true ∧
        folded = .coreLiteral (.coreInteger rounded) resultType
  | .coreLessThan, [left, right], folded => TruthLiteral (left.Compares (· < ·) right) folded
  | .coreLessEqual, [left, right], folded => TruthLiteral (left.Compares (· ≤ ·) right) folded
  | .coreGreaterThan, [left, right], folded => TruthLiteral (left.Compares (· > ·) right) folded
  | .coreGreaterEqual, [left, right], folded => TruthLiteral (left.Compares (· ≥ ·) right) folded
  | .coreEqual, [left, right], folded => TruthLiteral (left.Compares (· = ·) right) folded
  | .coreNotEqual, [left, right], folded => TruthLiteral (¬ left.Compares (· = ·) right) folded
  | _, _, _ => False

variable {format : BinaryFormat} {arguments : List CoreExpression} {folded : CoreExpression}
  {datum : FloatingValue} {values : List FloatingValue} {relation : Ordering → Bool}

theorem parseFloatingValue_holds {spelling : List Char}
    (hformat : Supported format) (h : parseFloatingValue format spelling = some datum) :
    format.Holds datum := by
  obtain ⟨negative, unsigned, hstrip⟩ :
      ∃ negative unsigned, stripLeadingSign spelling = (negative, unsigned) := ⟨_, _, rfl⟩
  by_cases hnan : unsigned = "nan".toList
  · unfold parseFloatingValue at h
    simp only [hstrip, if_pos hnan] at h
    cases h
    exact trivial
  by_cases hinf : unsigned = "inf".toList
  · unfold parseFloatingValue at h
    simp only [hstrip, if_neg hnan, if_pos hinf] at h
    cases h
    exact trivial
  obtain ⟨_, _, _, _, hrounds⟩ := parseFloatingValue_rounds hformat hstrip hnan hinf h
  exact hrounds.holds

theorem decodeFloating_spec (hformat : Supported format) {expression : CoreExpression}
    (h : decodeFloating format expression = some datum) :
    FloatingLiteral format (expressionType expression) datum expression ∧ format.Holds datum := by
  unfold decodeFloating at h
  split at h
  · exact ⟨⟨_, rfl, parseFloatingValue_spells hformat h⟩, parseFloatingValue_holds hformat h⟩
  · cases h

/-- The data of literals of one floating type. -/
structure Operands (format : BinaryFormat) (operandType : Ty) (arguments : List CoreExpression)
    (values : List FloatingValue) : Prop where
  format_eq : formatFor operandType = some format
  literals : List.Forall₂ (FloatingLiteral format operandType) values arguments
  holds : ∀ value ∈ values, format.Holds value

theorem mapM_forall₂ {α β : Type} {f : α → Option β} {inputs : List α} {outputs : List β}
    (h : inputs.mapM f = some outputs) : List.Forall₂ (fun x y => f x = some y) inputs outputs := by
  induction inputs generalizing outputs with
  | nil =>
      cases h
      exact .nil
  | cons input rest ih =>
      rw [List.mapM_cons] at h
      simp only [Option.bind_eq_bind, Option.bind_eq_some_iff] at h
      obtain ⟨output, houtput, others, hothers, heq⟩ := h
      cases heq
      exact .cons houtput (ih hothers)

theorem floatingOperands_spec
    (h : floatingOperands arguments = some (format, values)) :
    ∃ operandType, Operands format operandType arguments values := by
  unfold floatingOperands at h
  split at h
  · cases h
  next first rest =>
  split at h
  · cases h
  next format' hformat =>
  split at h
  · next hall =>
    rw [List.all_eq_true] at hall
    generalize first :: rest = arguments at *
    obtain ⟨values', hvalues, heq⟩ := Option.map_eq_some_iff.mp h
    cases heq
    have hdecoded := mapM_forall₂ hvalues
    have hsupported := supported_of_formatFor hformat
    have hboth : List.Forall₂ (fun value argument =>
        FloatingLiteral format (expressionType first) value argument ∧ format.Holds value)
        values arguments := by
      rw [List.forall₂_iff_get] at hdecoded ⊢
      refine ⟨hdecoded.1.symm, fun i hi hi' => ?_⟩
      have hdecode := hdecoded.2 i hi' hi
      have htype := of_decide_eq_true (hall _ (List.get_mem arguments ⟨i, hi'⟩))
      rw [← htype]
      exact decodeFloating_spec hsupported hdecode
    refine ⟨expressionType first, hformat, hboth.imp fun _ _ h => h.1, fun value hvalue => ?_⟩
    rw [List.forall₂_iff_get] at hboth
    obtain ⟨i, rfl⟩ := List.get_of_mem hvalue
    exact (hboth.2 i i.isLt (by rw [← hboth.1]; exact i.isLt)).2
  · cases h

/-- A printed datum of the format is a literal that stands for it. -/
theorem floatingResult_literal (hformat : Supported format) (resultType : Ty) (h : format.Holds datum) :
    FloatingLiteral format resultType datum (floatingResult format resultType datum) := by
  refine ⟨_, rfl, parseFloatingValue_spells hformat ?_⟩
  rw [String.toList_ofList]
  exact parseFloatingValue_render hformat h

section Results

variable {format : BinaryFormat} {left right result : FloatingValue}

theorem holds_of_isSum (h : format.IsSum left right result) : format.Holds result := by
  unfold Format.IsSum at h
  split at h
  · exact h ▸ trivial
  · exact h ▸ trivial
  · rw [h]
    split
    · exact trivial
    · exact trivial
  · exact h ▸ trivial
  · exact h ▸ trivial
  · exact h.holds

theorem holds_of_isProduct (h : format.IsProduct left right result) : format.Holds result := by
  unfold Format.IsProduct at h
  split at h
  · exact h ▸ trivial
  · exact h ▸ trivial
  · exact h ▸ trivial
  · rw [h]
    split
    · exact trivial
    · exact trivial
  · rw [h]
    split
    · exact trivial
    · exact trivial
  · exact h.holds

theorem holds_of_isQuotient (h : format.IsQuotient left right result) : format.Holds result := by
  unfold Format.IsQuotient at h
  split at h
  · exact h ▸ trivial
  · exact h ▸ trivial
  · exact h ▸ trivial
  · exact h ▸ trivial
  · rw [h]
    exact (rounds_zero format _).holds
  · split at h
    · rw [h]
      split
      · exact trivial
      · exact trivial
    · exact h.holds

theorem holds_of_isRemainder (hleft : format.Holds left) (h : format.IsRemainder left right result) :
    format.Holds result := by
  unfold Format.IsRemainder at h
  split at h
  · exact h ▸ trivial
  · exact h ▸ trivial
  · exact h ▸ trivial
  · exact h ▸ hleft
  · split at h
    · exact h ▸ trivial
    · exact h.holds

end Results

theorem foldArithmetic_spec
    (meaning : BinaryFormat → FloatingValue → FloatingValue → FloatingValue → Prop)
    {operation : BinaryFormat → FloatingValue → FloatingValue → Option FloatingValue}
    (hmeaning : ∀ format left right result, format.Holds left → format.Holds right →
      operation format left right = some result →
      meaning format left right result ∧ format.Holds result) {resultType : Ty}
    (h : foldArithmetic operation arguments resultType = some folded) :
    ∃ format operandType left right, Operands format operandType arguments [left, right] ∧
      ∃ result, meaning format left right result ∧ FloatingLiteral format resultType result folded := by
  unfold foldArithmetic at h
  split at h
  · next format left right hoperands =>
    obtain ⟨operandType, hvalues⟩ := floatingOperands_spec hoperands
    obtain ⟨result, hresult, rfl⟩ := Option.map_eq_some_iff.mp h
    obtain ⟨hspec, hholds⟩ :=
      hmeaning format left right result (hvalues.holds left (by simp)) (hvalues.holds right (by simp)) hresult
    exact ⟨format, operandType, left, right, hvalues, result, hspec,
      floatingResult_literal (supported_of_formatFor hvalues.format_eq) resultType hholds⟩
  · cases h

theorem foldComparison_spec {unordered : Bool} (h : foldComparison unordered relation arguments = some folded) :
    ∃ format operandType left right, Operands format operandType arguments [left, right] ∧
      folded = .coreLiteral (.coreBoolean (((compareFloating left right).map relation).getD unordered))
        boolType := by
  unfold foldComparison at h
  split at h
  · next format left right hoperands =>
    obtain ⟨operandType, hvalues⟩ := floatingOperands_spec hoperands
    exact ⟨format, operandType, left, right, hvalues, (Option.some.inj h).symm⟩
  · cases h

/-- A comparison that is false between data that are not ordered. -/
theorem foldComparison_compares (meaning : WithBot (WithTop ℚ) → WithBot (WithTop ℚ) → Prop)
    (hmeaning : ∀ x y, relation (compare x y) = true ↔ meaning x y)
    (h : foldComparison false relation arguments = some folded) :
    ∃ format operandType left right, Operands format operandType arguments [left, right] ∧
      TruthLiteral (left.Compares meaning right) folded := by
  obtain ⟨format, operandType, left, right, hvalues, hfolded⟩ := foldComparison_spec h
  exact ⟨format, operandType, left, right, hvalues, _, hfolded,
    compareFloating_compares left right relation meaning hmeaning⟩

theorem Operands.folds {operandType resultType : Ty} {primitive : CorePrimitive}
    (h : Operands format operandType arguments values)
    (hfolds : FoldsTo format resultType primitive values folded) :
    ∃ format operandType values, formatFor operandType = some format ∧
      List.Forall₂ (FloatingLiteral format operandType) values arguments ∧
      FoldsTo format resultType primitive values folded :=
  ⟨format, operandType, values, h.format_eq, h.literals, hfolds⟩

/-- **A folded primitive is a literal for the result of IEEE arithmetic** on the data that its operands
stand for. -/
theorem foldFloatingPrimitive_sound (primitive : CorePrimitive) (arguments : List CoreExpression)
    (resultType : Ty) (folded : CoreExpression)
    (h : foldFloatingPrimitive primitive arguments resultType = some folded) :
    ∃ format operandType values, formatFor operandType = some format ∧
      List.Forall₂ (FloatingLiteral format operandType) values arguments ∧
      FoldsTo format resultType primitive values folded := by
  unfold foldFloatingPrimitive at h
  split at h
  · obtain ⟨format, operandType, left, right, hvalues, hfolds⟩ :=
      foldArithmetic_spec Format.IsSum (fun _ _ _ _ hleft hright h =>
        ⟨addFloating_isSum hleft hright h, holds_of_isSum (addFloating_isSum hleft hright h)⟩) h
    exact hvalues.folds hfolds
  · obtain ⟨format, operandType, left, right, hvalues, hfolds⟩ :=
      foldArithmetic_spec Format.IsDifference (fun _ _ _ _ hleft hright h =>
        ⟨subtractFloating_isDifference hleft hright h,
          holds_of_isSum (subtractFloating_isDifference hleft hright h)⟩) h
    exact hvalues.folds hfolds
  · obtain ⟨format, operandType, left, right, hvalues, hfolds⟩ :=
      foldArithmetic_spec Format.IsProduct (fun _ _ _ _ hleft hright h =>
        ⟨multiplyFloating_isProduct hleft hright h,
          holds_of_isProduct (multiplyFloating_isProduct hleft hright h)⟩) h
    exact hvalues.folds hfolds
  · obtain ⟨format, operandType, left, right, hvalues, hfolds⟩ :=
      foldArithmetic_spec Format.IsQuotient (fun _ _ _ _ hleft hright h =>
        ⟨divideFloating_isQuotient hleft hright h,
          holds_of_isQuotient (divideFloating_isQuotient hleft hright h)⟩) h
    exact hvalues.folds hfolds
  · obtain ⟨format, operandType, left, right, hvalues, hfolds⟩ :=
      foldArithmetic_spec Format.IsRemainder (fun _ _ _ _ hleft hright h =>
        ⟨remainderFloating_isRemainder hleft hright h,
          holds_of_isRemainder hleft (remainderFloating_isRemainder hleft hright h)⟩) h
    exact hvalues.folds hfolds
  · unfold foldNegation at h
    split at h
    · next format value hoperands =>
      obtain ⟨operandType, hvalues⟩ := floatingOperands_spec hoperands
      cases h
      rw [negateValue_eq]
      have hnegated := holds_negate (hvalues.holds value (by simp))
      exact hvalues.folds
        (floatingResult_literal (supported_of_formatFor hvalues.format_eq) resultType hnegated)
    · cases h
  · unfold foldRoundedDivision at h
    split at h
    · next format left right hoperands =>
      obtain ⟨operandType, hvalues⟩ := floatingOperands_spec hoperands
      split at h
      · cases h
      next quotient hquotient =>
      obtain ⟨rounded, hdivide, hfinite⟩ := Option.bind_eq_some_iff.mp hquotient
      dsimp only at h
      split at h
      · next hfits =>
        cases h
        have hspec := divideFloating_isQuotient (hvalues.holds left (by simp))
          (hvalues.holds right (by simp)) hdivide
        cases rounded with
        | notANumber => cases hfinite
        | infinity negative => cases hfinite
        | finite negative magnitude =>
            obtain rfl : signedMagnitude negative magnitude = quotient := Option.some.inj hfinite
            exact hvalues.folds ⟨negative, magnitude, _, hspec, roundRatioAwayFromZero_spec _, hfits, rfl⟩
      · cases h
    · cases h
  · obtain ⟨format, operandType, left, right, hvalues, hfolds⟩ :=
      foldComparison_compares (· < ·) (fun x y => by
        rw [beq_iff_eq, compare_lt_iff_lt]) h
    exact hvalues.folds hfolds
  · obtain ⟨format, operandType, left, right, hvalues, hfolds⟩ :=
      foldComparison_compares (· ≤ ·) (fun x y => by
        rw [bne_iff_ne, Ne, compare_gt_iff_gt, not_lt]) h
    exact hvalues.folds hfolds
  · obtain ⟨format, operandType, left, right, hvalues, hfolds⟩ :=
      foldComparison_compares (· > ·) (fun x y => by
        rw [beq_iff_eq, compare_gt_iff_gt]) h
    exact hvalues.folds hfolds
  · obtain ⟨format, operandType, left, right, hvalues, hfolds⟩ :=
      foldComparison_compares (· ≥ ·) (fun x y => by
        rw [bne_iff_ne, Ne, compare_lt_iff_lt, not_lt]) h
    exact hvalues.folds hfolds
  · obtain ⟨format, operandType, left, right, hvalues, hfolds⟩ :=
      foldComparison_compares (· = ·) (fun x y => by
        rw [beq_iff_eq, compare_eq_iff_eq]) h
    exact hvalues.folds hfolds
  · obtain ⟨format, operandType, left, right, hvalues, hfolded⟩ := foldComparison_spec h
    refine hvalues.folds ⟨_, hfolded, ?_⟩
    -- what is not equal is what does not compare equal
    have hequal := compareFloating_compares left right (· == .eq) (· = ·) (fun x y => by
      rw [beq_iff_eq, compare_eq_iff_eq])
    rw [← hequal]
    cases compareFloating left right with
    | none => simp
    | some order => simp
  · cases h

/-- A floating literal of a named type. -/
def floatingLiteral (name spelling : String) : CoreExpression :=
  .coreLiteral (.coreFloating spelling) (namedType name)

/-- The tenths whose sum is famously not three tenths. -/
theorem foldFloatingPrimitive_sound_tenths :
    ∃ format operandType values, formatFor operandType = some format ∧
      List.Forall₂ (FloatingLiteral format operandType) values
        [floatingLiteral "float" "0.1", floatingLiteral "float" "0.2"] ∧
      FoldsTo format (namedType "float") .coreAdd values
        (floatingLiteral "float" "3.0000000000000004e-1") :=
  foldFloatingPrimitive_sound _ _ _ _ (by decide +kernel)

/-- A literal of the result of a primitive: a floating one that stands for the datum, or an integer that
is equal to it. -/
def HasValue (format : BinaryFormat) (resultType : Ty) (datum : FloatingValue)
    (expression : CoreExpression) : Prop :=
  FloatingLiteral format resultType datum expression ∨
    ∃ (value : Int) (negative : Bool) (magnitude : ℚ),
      expression = .coreLiteral (.coreInteger value) resultType ∧ datum = .finite negative magnitude ∧
        Library.BinaryFloat.signed negative magnitude = value

/-- Rounded division does not give the rounded quotient itself: one rounded-divided by two is one. -/
theorem not_foldRoundedDivision_quotient :
    ¬ ∀ (arguments : List CoreExpression) (resultType : Ty) (folded : CoreExpression)
        (format : BinaryFormat) (left right : FloatingValue),
      foldFloatingPrimitive .coreFloorDivide arguments resultType = some folded →
      floatingOperands arguments = some (format, [left, right]) →
      ∃ quotient, format.IsQuotient left right quotient ∧ HasValue format resultType quotient folded := by
  intro h
  obtain ⟨quotient, hquotient, hvalue⟩ := h
    [floatingLiteral "float" "1.0", floatingLiteral "float" "2.0"] intType
    (.coreLiteral (.coreInteger 1) intType) ⟨53, -1022, 1023, by decide, by decide⟩
    (.finite false 1) (.finite false 2) (by decide +kernel) (by decide +kernel)
  have hrounds : Format.Rounds ⟨53, -1022, 1023, by decide, by decide⟩ false (1 / 2) quotient := hquotient
  have hcode := roundToFormat_rounds ⟨53, -1022, 1023, by decide, by decide⟩ false
    (show (0 : ℚ) ≤ 1 / 2 by norm_num)
  have hhalf : roundToFormat ⟨53, -1022, 1023, by decide, by decide⟩ false (1 / 2) = .finite false (1 / 2) := by
    decide +kernel
  rw [hhalf] at hcode
  obtain rfl := hrounds.unique hcode
  rcases hvalue with ⟨spelling, heq, _⟩ | ⟨value, negative, magnitude, heq, hdatum, hsame⟩
  · cases heq
  · cases heq
    cases hdatum
    unfold Library.BinaryFloat.signed at hsame
    norm_num at hsame

end Tala.Core.Optimizer.Floating
