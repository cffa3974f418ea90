import Tala.Runtime.FormatFacts

/-!
# `Runtime.FormatCorrect` — a floating-point value is written exactly

`decimalText` is the text of a number of units of the last digit: its decimal digits with the point before the
fraction and a separator between groups of three. `floatingText` is the field of a finite double around the
text of the nearest such number. The program writes this text, or is stopped because storage for the text was
refused: never because the limbs did not fit (`appendFloating_exact`).
-/

namespace Tala.Runtime.Text

open Tala.Library Tala.Library.BinaryFloat

/-! ## The text of a number -/

/-- The digit at a place counted from the last one. -/
def digitAt (number place : Nat) : Char := Nat.digitChar (number / 10 ^ place % 10)

/-- So many last digits of a number. -/
def fractionText (precision number : Nat) : List Char :=
  ((List.range precision).map (digitAt number)).reverse

/-- Digits with a separator wherever a multiple of three of them follows. -/
def groupDigits : List Char → List Char
  | [] => []
  | digit :: rest =>
      digit :: (if rest ≠ [] ∧ rest.length % 3 = 0 then separator :: groupDigits rest else groupDigits rest)

/-- The digits of the integer part. -/
def integerText (grouped : Bool) (number : Nat) : List Char :=
  if grouped then groupDigits (Nat.toDigits 10 number) else Nat.toDigits 10 number

/-- A number whose last digits, so many, stand after the point. -/
def decimalText (grouped : Bool) (precision number : Nat) : List Char :=
  integerText grouped (number / 10 ^ precision) ++
    if 0 < precision then '.' :: fractionText precision number else []

/-- What stands before the body and the body, brought to the width. -/
def fieldText (lead body : List Char) (conversion : Conversion) (zerosAllowed : Bool) : List Char :=
  let padding := conversion.width.toInt.toNat - (lead.length + body.length)
  if conversion.has flagLeft then lead ++ body ++ List.replicate padding ' '
  else if zerosAllowed && conversion.has flagZero then lead ++ List.replicate padding '0' ++ body
  else List.replicate padding ' ' ++ lead ++ body

/-- The field of a finite double whose magnitude is so many units of the last digit. -/
def floatingText (bits : UInt64) (conversion : Conversion) (units : Nat) : List Char :=
  fieldText (sign (isNegative bits) conversion)
    (decimalText (conversion.has flagGroup) conversion.fractionLength units) conversion true

/-- A field is as long as its width or what is written, whichever is more. -/
theorem fieldText_length (lead body : List Char) (conversion : Conversion) (zerosAllowed : Bool) :
    (fieldText lead body conversion zerosAllowed).length
      = max conversion.width.toInt.toNat (lead.length + body.length) := by
  unfold fieldText
  split_ifs <;> simp only [List.length_append, List.length_replicate] <;> omega

theorem fractionText_length (precision number : Nat) : (fractionText precision number).length = precision := by
  simp [fractionText]

section Appending

variable {allocator : Allocator}

/-! ## Fields -/

theorem padding_eq (conversion : Conversion) (size : Nat) :
    conversion.padding size = conversion.width.toInt.toNat - size := by
  unfold Conversion.padding
  split_ifs <;> omega

variable {content : List Char}

/-- A filling that is made or not. -/
theorem fillWhen_becomes {scalars : Scalars} (condition : Bool) (scalar : Char) (count : Nat)
    (h : scalars.content ++ (if condition then List.replicate count scalar else []) = content) :
    Scalars.Becomes allocator content
      (if condition then scalars.fill allocator scalar count else some scalars) := by
  cases condition with
  | true => exact Scalars.fill_becomes h
  | false =>
      rw [if_neg Bool.false_ne_true, List.append_nil] at h
      exact yields_some h

/-- The parts of a field in their order. -/
theorem fieldText_eq (lead body : List Char) (conversion : Conversion) (zerosAllowed : Bool) :
    fieldText lead body conversion zerosAllowed
      = (if !conversion.has flagLeft && !(zerosAllowed && !conversion.has flagLeft && conversion.has flagZero) then
          List.replicate (conversion.padding (lead.length + body.length)) ' ' else []) ++ (lead ++
        ((if zerosAllowed && !conversion.has flagLeft && conversion.has flagZero then
          List.replicate (conversion.padding (lead.length + body.length)) '0' else []) ++ (body ++
        if conversion.has flagLeft then
          List.replicate (conversion.padding (lead.length + body.length)) ' ' else []))) := by
  unfold fieldText
  rw [padding_eq]
  cases conversion.has flagLeft <;> cases zerosAllowed <;> cases conversion.has flagZero <;> simp

theorem appendField_becomes (output : Scalars) (lead : List Char) (body : Scalars) (conversion : Conversion)
    (zerosAllowed : Bool) :
    Scalars.Becomes allocator (output.content ++ fieldText lead body.content conversion zerosAllowed)
      (appendField allocator output lead body conversion zerosAllowed) := by
  rw [fieldText_eq]
  refine Yields.bind (fillWhen_becomes _ _ _ rfl) ?_ fun first hfirst => ?_
  · simp only [List.length_append]
    exact Nat.add_le_add_left (Nat.le_add_right _ _) _
  refine Yields.bind (Scalars.appendAscii_becomes rfl) ?_ fun second hsecond => ?_
  · rw [hfirst]
    simp only [List.length_append]
    unfold Scalars.size
    omega
  refine Yields.bind (fillWhen_becomes _ _ _ rfl) ?_ fun third hthird => ?_
  · rw [hsecond, hfirst]
    simp only [List.length_append]
    unfold Scalars.size
    omega
  refine Yields.bind (Scalars.appendAll_becomes rfl) ?_ fun fourth hfourth => ?_
  · rw [hthird, hsecond, hfirst]
    simp only [List.length_append]
    unfold Scalars.size
    omega
  refine fillWhen_becomes _ _ _ ?_
  rw [hfourth, hthird, hsecond, hfirst]
  simp only [List.append_assoc]
  rfl

/-! ## Digits -/

theorem digitChar_ofNat {digit : Nat} (h : digit < 10) : Char.ofNat ('0'.toNat + digit) = Nat.digitChar digit := by
  interval_cases digit <;> rfl

theorem nextDigit_spec (scaled : Natural) :
    (nextDigit scaled).1 = digitAt scaled.value 0 ∧ (nextDigit scaled).2.value = scaled.value / 10 := by
  have hten : 0 < (10 : UInt32).toNat := by decide
  refine ⟨?_, scaled.divide_value hten⟩
  obtain ⟨_, hremainder⟩ := Limbs.divide_spec hten scaled.limbs
  have hvalue : (scaled.divide 10).2.toNat = scaled.value % 10 := by
    show (Limbs.divide 10 scaled.limbs).2.toUInt32.toNat = scaled.value % 10
    rw [UInt64.toNat_toUInt32, hremainder]
    show scaled.value % 10 % 2 ^ 32 = _
    omega
  unfold nextDigit digitAt
  rw [hvalue, pow_zero, Nat.div_one]
  exact digitChar_ofNat (Nat.mod_lt _ (by decide))

theorem digitAt_succ (number place : Nat) : digitAt number (place + 1) = digitAt (number / 10) place := by
  unfold digitAt
  rw [Nat.div_div_eq_div_mul, pow_succ']

theorem fractionDigits_yields (count : Nat) (body : Scalars) (scaled : Natural)
    (h : body.content ++ (List.range count).map (digitAt scaled.value) = content) :
    Yields allocator content.length
      (fun result => result.1.content = content ∧ result.2.value = scaled.value / 10 ^ count)
      (fractionDigits allocator count body scaled) := by
  induction count generalizing body scaled with
  | zero =>
      refine yields_some ⟨?_, ?_⟩
      · simpa using h
      · rw [pow_zero, Nat.div_one]
  | succ count ih =>
      obtain ⟨hdigit, hrest⟩ := nextDigit_spec scaled
      have hrange : (List.range (count + 1)).map (digitAt scaled.value)
          = digitAt scaled.value 0 :: (List.range count).map (digitAt (scaled.value / 10)) := by
        rw [List.range_succ_eq_map, List.map_cons, List.map_map]
        congr 2
        funext place
        exact digitAt_succ _ _
      rw [hrange] at h
      have hfirst : Scalars.Becomes allocator (body.content ++ [(nextDigit scaled).1])
          (body.append allocator (nextDigit scaled).1) := Scalars.append_becomes rfl
      refine Yields.bind hfirst ?_ fun grown hgrown => ?_
      · rw [← h]
        simp
      · have hvalue : scaled.value / 10 ^ (count + 1) = (nextDigit scaled).2.value / 10 ^ count := by
          rw [hrest, Nat.div_div_eq_div_mul, pow_succ']
        rw [hvalue]
        refine ih grown (nextDigit scaled).2 ?_
        rw [hgrown, hrest, hdigit, ← h, List.append_assoc]
        rfl

/-- Digits from the last one on, with the separators of `ReversedDigits`, after so many digits. -/
def groupReversed (grouped : Bool) : Nat → List Char → List Char
  | _, [] => []
  | count, digit :: rest =>
      (if grouped && count != 0 && count % 3 = 0 then [separator] else []) ++
        digit :: groupReversed grouped (count + 1) rest

theorem groupReversed_append (grouped : Bool) (count : Nat) (digits more : List Char) :
    groupReversed grouped count (digits ++ more)
      = groupReversed grouped count digits ++ groupReversed grouped (count + digits.length) more := by
  induction digits generalizing count with
  | nil => rfl
  | cons digit rest ih =>
      show _ ++ digit :: groupReversed grouped (count + 1) (rest ++ more) = _
      rw [ih, List.length_cons, Nat.add_right_comm]
      simp [groupReversed, Nat.add_assoc]

/-- **Separators after every third digit from the end** stand where a multiple of three digits follows. -/
theorem groupReversed_reverse (digits : List Char) :
    (groupReversed true 0 digits.reverse).reverse = groupDigits digits := by
  induction digits with
  | nil => rfl
  | cons digit rest ih =>
      rw [List.reverse_cons, groupReversed_append, List.reverse_append, ih, List.length_reverse, Nat.zero_add]
      unfold groupReversed groupDigits
      cases rest with
      | nil => rfl
      | cons second later =>
          by_cases hthree : (second :: later).length % 3 = 0
          · rw [if_pos (by simpa using hthree), if_pos ⟨by simp, hthree⟩]
            rfl
          · rw [if_neg (by simpa using hthree), if_neg (fun h => hthree h.2)]
            rfl

theorem groupReversed_false (count : Nat) (digits : List Char) : groupReversed false count digits = digits := by
  induction digits generalizing count with
  | nil => rfl
  | cons digit rest ih =>
      unfold groupReversed
      rw [ih]
      rfl

theorem integerText_eq (grouped : Bool) (number : Nat) :
    (groupReversed grouped 0 (Nat.toDigits 10 number).reverse).reverse = integerText grouped number := by
  unfold integerText
  cases grouped with
  | true => exact groupReversed_reverse _
  | false =>
      rw [groupReversed_false, List.reverse_reverse]
      rfl

theorem appendDigit_yields (reversed : ReversedDigits) (digit : Char)
    (h : reversed.digits.content ++ groupReversed reversed.grouped reversed.count [digit] = content) :
    Yields allocator content.length
      (fun result : ReversedDigits => result.digits.content = content ∧
        result.grouped = reversed.grouped ∧ result.count = reversed.count + 1)
      (reversed.append allocator digit) := by
  have hseparator : Scalars.Becomes allocator
      (reversed.digits.content ++ if reversed.grouped && reversed.count != 0 && reversed.count % 3 = 0 then
        [separator] else [])
      (if reversed.grouped && reversed.count != 0 && reversed.count % 3 = 0 then
        reversed.digits.append allocator separator else some reversed.digits) := by
    split_ifs
    · exact Scalars.append_becomes rfl
    · exact yields_some (List.append_nil _).symm
  have hcontent : content = (reversed.digits.content ++
      if reversed.grouped && reversed.count != 0 && reversed.count % 3 = 0 then [separator] else []) ++ [digit] := by
    rw [← h, List.append_assoc]
    rfl
  refine Yields.bind hseparator ?_ fun digits hdigits => ?_
  · rw [hcontent]
    exact (List.prefix_append _ _).length_le
  · have hdigit : Scalars.Becomes allocator content (digits.append allocator digit) := by
      refine Scalars.append_becomes ?_
      rw [hdigits, hcontent]
    exact hdigit.map fun grown hgrown => ⟨hgrown, rfl, rfl⟩

/-- The last digit of a number and the digits before it. -/
theorem toDigits_reverse {base : Nat} (hbase : 1 < base) (number : Nat) : (Nat.toDigits base number).reverse
    = Nat.digitChar (number % base) ::
      if number / base = 0 then [] else (Nat.toDigits base (number / base)).reverse := by
  by_cases hsmall : number < base
  · rw [Nat.toDigits_of_lt_base hsmall, if_pos (Nat.div_eq_of_lt hsmall), Nat.mod_eq_of_lt hsmall]
    rfl
  · have hpositive : number / base ≠ 0 := (Nat.div_pos (by omega) (by omega)).ne'
    rw [Nat.toDigits_of_base_le hbase (by omega), if_neg hpositive, List.reverse_append]
    rfl

theorem digitAt_zero (number : Nat) : digitAt number 0 = Nat.digitChar (number % 10) := by
  unfold digitAt
  rw [pow_zero, Nat.div_one]

theorem integerDigits_yields (integer : ReversedDigits) (scaled : Natural) (h : integer.digits.content ++
      groupReversed integer.grouped integer.count (Nat.toDigits 10 scaled.value).reverse = content) :
    Yields allocator content.length (fun result : ReversedDigits => result.digits.content = content)
      (integerDigits allocator integer scaled) := by
  induction hnumber : scaled.value using Nat.strong_induction_on generalizing integer scaled with
  | _ number ih =>
      obtain ⟨hdigit, hrest⟩ := nextDigit_spec scaled
      have hzero : (nextDigit scaled).2.isZero = true ↔ scaled.value / 10 = 0 := by
        rw [← hrest]
        exact scaled.divide_isZero 10
      -- the last digit, and the others when there are some
      have hsplit : content = (integer.digits.content ++
          groupReversed integer.grouped integer.count [(nextDigit scaled).1]) ++
            groupReversed integer.grouped (integer.count + 1)
              (if scaled.value / 10 = 0 then [] else (Nat.toDigits 10 (scaled.value / 10)).reverse) := by
        rw [← h, toDigits_reverse (by decide), hdigit, digitAt_zero, List.append_assoc]
        congr 1
        exact groupReversed_append integer.grouped integer.count [Nat.digitChar (scaled.value % 10)] _
      rw [integerDigits]
      refine Yields.bind (appendDigit_yields integer (nextDigit scaled).1 rfl) ?_ fun grown hgrown => ?_
      · rw [hsplit]
        exact (List.prefix_append _ _).length_le
      obtain ⟨hcontent, hgrouped, hcount⟩ := hgrown
      by_cases hlast : scaled.value / 10 = 0
      · rw [if_pos (hzero.mpr hlast)]
        refine yields_some ?_
        rw [if_pos hlast] at hsplit
        rw [hcontent, hsplit]
        exact (List.append_nil _).symm
      · rw [if_neg (mt hzero.mp hlast)]
        rw [if_neg hlast] at hsplit
        refine ih (nextDigit scaled).2.value ?_ grown (nextDigit scaled).2 ?_ rfl
        · rw [hrest]
          omega
        · rw [hcontent, hgrouped, hcount, hrest, hsplit]

theorem appendZeros_becomes (count : Nat) (body : Scalars) (h : body.content ++ List.replicate count '0' = content) :
    Scalars.Becomes allocator content (appendZeros allocator count body) := by
  induction count generalizing body with
  | zero =>
      rw [List.replicate_zero, List.append_nil] at h
      exact yields_some h
  | succ count ih =>
      have hfirst : Scalars.Becomes allocator (body.content ++ ['0']) (body.append allocator '0') :=
        Scalars.append_becomes rfl
      refine Yields.bind hfirst ?_ fun grown hgrown => ih grown ?_
      · rw [← h]
        simp
      · rw [hgrown, ← h, List.append_assoc]
        rfl

/-! ## Integers and texts -/

theorem integerDigit_eq {digit : Nat} (h : digit < 16) : integerDigit digit = Nat.digitChar digit := by
  interval_cases digit <;> rfl

theorem magnitudeDigits_yields {base : Nat} (hbase : 1 < base) (hsmall : base ≤ 16) (magnitude : Nat)
    (reversed : ReversedDigits) (h : reversed.digits.content ++
      groupReversed reversed.grouped reversed.count (Nat.toDigits base magnitude).reverse = content) :
    Yields allocator content.length (fun result : ReversedDigits => result.digits.content = content)
      (magnitudeDigits allocator base hbase magnitude reversed) := by
  induction magnitude using Nat.strong_induction_on generalizing reversed with
  | _ magnitude ih =>
      have hdigit : integerDigit (magnitude % base) = Nat.digitChar (magnitude % base) :=
        integerDigit_eq (lt_of_lt_of_le (Nat.mod_lt _ (by omega)) hsmall)
      have hsplit : content = (reversed.digits.content ++
          groupReversed reversed.grouped reversed.count [integerDigit (magnitude % base)]) ++
            groupReversed reversed.grouped (reversed.count + 1)
              (if magnitude / base = 0 then [] else (Nat.toDigits base (magnitude / base)).reverse) := by
        rw [← h, toDigits_reverse hbase, hdigit, List.append_assoc]
        congr 1
        exact groupReversed_append reversed.grouped reversed.count [Nat.digitChar (magnitude % base)] _
      rw [magnitudeDigits]
      refine Yields.bind (appendDigit_yields reversed _ rfl) ?_ fun grown hgrown => ?_
      · rw [hsplit]
        exact (List.prefix_append _ _).length_le
      obtain ⟨hcontent, hgrouped, hcount⟩ := hgrown
      by_cases hlast : magnitude / base = 0
      · rw [if_neg (not_not.mpr hlast)]
        refine yields_some ?_
        rw [if_pos hlast] at hsplit
        rw [hcontent, hsplit]
        exact (List.append_nil _).symm
      · rw [if_pos hlast]
        rw [if_neg hlast] at hsplit
        refine ih (magnitude / base) (Nat.div_lt_self ?_ hbase) grown ?_
        · rw [Nat.pos_iff_ne_zero]
          rintro rfl
          exact hlast (Nat.zero_div base)
        · rw [hcontent, hgrouped, hcount, hsplit]

/-- The text of an integer with its sign. -/
def integerFieldText (negative : Bool) (magnitude : Nat) (conversion : Conversion) : List Char :=
  if conversion.has flagHexadecimal then
    fieldText (sign negative conversion ++ if conversion.has flagAlternate then ['0', 'x'] else [])
      (Nat.toDigits 16 magnitude) conversion true
  else fieldText (sign negative conversion) (integerText (conversion.has flagGroup) magnitude) conversion true

/-- **A text** is cut to the precision. -/
theorem appendText_becomes (output : Scalars) (scalars : List Char) (conversion : Conversion) :
    Scalars.Becomes allocator
      (output.content ++ fieldText []
        (if 0 ≤ conversion.precision.toInt then scalars.take conversion.precision.toInt.toNat else scalars)
        conversion false)
      (appendText allocator output scalars conversion) := by
  have htaken : scalars.take (if 0 ≤ conversion.precision.toInt ∧
        conversion.precision.toInt.toNat < scalars.length
      then conversion.precision.toInt.toNat else scalars.length)
      = if 0 ≤ conversion.precision.toInt then scalars.take conversion.precision.toInt.toNat else scalars := by
    by_cases hprecision : 0 ≤ conversion.precision.toInt
    · rw [if_pos hprecision]
      by_cases hless : conversion.precision.toInt.toNat < scalars.length
      · rw [if_pos ⟨hprecision, hless⟩]
      · rw [if_neg (fun h => hless h.2), List.take_length, List.take_of_length_le (by omega)]
    · rw [if_neg hprecision, if_neg (fun h => hprecision h.1), List.take_length]
  rw [← htaken]
  refine Yields.bind (Scalars.appendAll_becomes rfl) ?_ fun body hbody => ?_
  · rw [@List.length_append _ output.content, fieldText_length]
    show (Scalars.empty.content ++ _).length ≤ _
    rw [List.length_append]
    show 0 + _ ≤ _
    omega
  · have hfield : Scalars.Becomes allocator _ (appendField allocator output [] body conversion false) :=
      appendField_becomes _ _ _ _ _
    rw [hbody] at hfield
    exact hfield

/-! ## The body -/

/-- A number with zeros behind it has these digits. -/
theorem fraction_zeros (zeros computed number : Nat) :
    (List.range (zeros + computed)).map (digitAt (number * 10 ^ zeros))
      = List.replicate zeros '0' ++ (List.range computed).map (digitAt number) := by
  rw [List.range_add, List.map_append, List.map_map]
  congr 1
  · rw [List.eq_replicate_iff]
    refine ⟨by simp, ?_⟩
    intro digit hdigit
    obtain ⟨place, hplace, rfl⟩ := List.mem_map.mp hdigit
    rw [List.mem_range] at hplace
    have hten : number * 10 ^ zeros / 10 ^ place = number * 10 ^ (zeros - place - 1) * 10 := by
      have hpower : 10 ^ zeros = 10 ^ (zeros - place - 1) * 10 * 10 ^ place := by
        rw [← pow_succ, ← pow_add]
        congr 1
        omega
      rw [hpower, ← Nat.mul_assoc, Nat.mul_div_cancel _ (by positivity), Nat.mul_assoc]
    unfold digitAt
    rw [hten, Nat.mul_mod_left]
    rfl
  · refine List.map_congr_left ?_
    intro place _
    show digitAt (number * 10 ^ zeros) (zeros + place) = digitAt number place
    unfold digitAt
    rw [pow_add, ← Nat.div_div_eq_div_mul, Nat.mul_div_cancel _ (by positivity)]

theorem reversedBody_yields (scaled : Natural) {precision computed : Nat} (hcomputed : computed ≤ precision)
    (grouped : Bool) :
    Yields allocator (decimalText grouped precision (scaled.value * 10 ^ (precision - computed))).length
      (fun body : Scalars => body.content.reverse
        = decimalText grouped precision (scaled.value * 10 ^ (precision - computed)))
      (reversedBody allocator scaled precision computed grouped) := by
  have hfraction : List.replicate (precision - computed) '0' ++ (List.range computed).map (digitAt scaled.value)
      = (List.range precision).map (digitAt (scaled.value * 10 ^ (precision - computed))) := by
    rw [← fraction_zeros, Nat.sub_add_cancel hcomputed]
  have hinteger : scaled.value * 10 ^ (precision - computed) / 10 ^ precision = scaled.value / 10 ^ computed := by
    have hpower : 10 ^ precision = 10 ^ (precision - computed) * 10 ^ computed := by
      rw [← pow_add, Nat.sub_add_cancel hcomputed]
    rw [hpower, ← Nat.div_div_eq_div_mul, Nat.mul_div_cancel _ (by positivity)]
  generalize hunits : scaled.value * 10 ^ (precision - computed) = units at hfraction hinteger ⊢
  -- the text from its end on
  have htext : (decimalText grouped precision units).reverse
      = (((List.range precision).map (digitAt units)) ++ if 0 < precision then ['.'] else []) ++
        groupReversed grouped 0 (Nat.toDigits 10 (scaled.value / 10 ^ computed)).reverse := by
    unfold decimalText
    rw [List.reverse_append, hinteger, ← integerText_eq, List.reverse_reverse]
    congr 1
    by_cases hprecision : 0 < precision
    · rw [if_pos hprecision, if_pos hprecision, List.reverse_cons, fractionText, List.reverse_reverse]
    · have hnone : precision = 0 := by omega
      subst hnone
      rfl
  have hlength : (decimalText grouped precision units).length
      = ((((List.range precision).map (digitAt units)) ++ if 0 < precision then ['.'] else []) ++
        groupReversed grouped 0 (Nat.toDigits 10 (scaled.value / 10 ^ computed)).reverse).length := by
    rw [← htext, List.length_reverse]
  rw [hlength]
  have hzeros : Scalars.Becomes allocator (List.replicate (precision - computed) '0')
      (appendZeros allocator (precision - computed) Scalars.empty) := appendZeros_becomes _ _ rfl
  refine Yields.bind hzeros ?_ fun zeros hcontent => ?_
  · rw [← hfraction]
    simp only [List.length_append]
    omega
  refine Yields.bind (fractionDigits_yields computed zeros scaled rfl) ?_ ?_
  · rw [hcontent, hfraction]
    simp only [List.length_append]
    omega
  rintro ⟨body, rest⟩ ⟨hbody, hrest⟩
  rw [hcontent, hfraction] at hbody
  have hpoint : Scalars.Becomes allocator
      ((List.range precision).map (digitAt units) ++ if 0 < precision then ['.'] else [])
      (if 0 < precision then body.append allocator '.' else some body) := by
    split_ifs
    · refine Scalars.append_becomes ?_
      rw [← hbody]
    · refine yields_some ?_
      rw [List.append_nil]
      exact hbody
  refine Yields.bind hpoint ?_ fun pointed hpointed => ?_
  · exact (List.prefix_append _ _).length_le
  refine Yields.map (integerDigits_yields ⟨pointed, grouped, 0⟩ rest ?_) fun result hresult => ?_
  · rw [hrest]
    show pointed.content ++ _ = _
    rw [hpointed]
  · rw [hresult, ← htext, List.reverse_reverse]

end Appending

/-! ## Digits beyond the exact ones -/

/-- A finite double has no digits after `exactFractionDigits`. -/
theorem magnitude_scaled (bits : UInt64) {digits : Nat} (hdigits : exactFractionDigits ≤ digits) :
    ∃ units : Nat, magnitude bits * 10 ^ digits = units := by
  rw [magnitude_eq]
  have hexponent : -(digits : Int) ≤ (Parts.ofBits bits).exponent := by
    have hexact : exactFractionDigits = 1074 := rfl
    unfold Parts.exponent
    split_ifs <;> omega
  generalize (Parts.ofBits bits).exponent = exponent at hexponent ⊢
  refine ⟨(Parts.ofBits bits).significand.toNat * 2 ^ (exponent + digits).toNat * 5 ^ digits, ?_⟩
  have hten : (10 : ℚ) ^ digits = 2 ^ (digits : Int) * 5 ^ digits := by
    rw [zpow_natCast, ← mul_pow]
    norm_num
  have htwo : (2 : ℚ) ^ exponent * 2 ^ (digits : Int) = 2 ^ (exponent + digits).toNat := by
    rw [← zpow_add₀ two_ne_zero, ← zpow_natCast, Int.toNat_of_nonneg (by omega)]
  push_cast
  rw [hten, ← htwo]
  ring

theorem nearestInteger_self (value : Int) : NearestInteger (value : ℚ) value := by
  show |(value : ℚ) - value| ≤ 1 / 2 ∧ (|(value : ℚ) - value| = 1 / 2 → Even value)
  rw [sub_self, abs_zero]
  norm_num

/-- The only integer nearest to an integer. -/
theorem nearestInteger_natCast {exact rounded : Nat} (h : NearestInteger (exact : ℚ) (rounded : Int)) :
    exact = rounded := by
  have hclose := abs_le.mp h.1
  have hless : (exact : ℚ) < rounded + 1 := by
    have := hclose.2
    push_cast at this
    linarith
  have hmore : (rounded : ℚ) < exact + 1 := by
    have := hclose.1
    push_cast at this
    linarith
  have hless' : exact < rounded + 1 := by exact_mod_cast hless
  have hmore' : rounded < exact + 1 := by exact_mod_cast hmore
  omega

/-- The digits that are computed. -/
def computedDigits (precision : Nat) : Nat :=
  if precision < exactFractionDigits then precision else exactFractionDigits

theorem computedDigits_le (precision : Nat) :
    computedDigits precision ≤ precision ∧ computedDigits precision ≤ exactFractionDigits := by
  unfold computedDigits
  split_ifs <;> omega

/-- **Zeros after the computed digits** keep the nearest integer. -/
theorem nearestInteger_zeros (bits : UInt64) (precision : Nat) {scaled : Nat}
    (h : NearestInteger (magnitude bits * 10 ^ computedDigits precision) (scaled : Int)) :
    NearestInteger (magnitude bits * 10 ^ precision)
      ((scaled * 10 ^ (precision - computedDigits precision) : Nat) : Int) := by
  unfold computedDigits at h ⊢
  split_ifs at h ⊢ with hshort
  · rw [Nat.sub_self, pow_zero, Nat.mul_one]
    exact h
  · obtain ⟨units, hunits⟩ := magnitude_scaled bits le_rfl
    rw [hunits] at h
    have hexact := nearestInteger_natCast h
    have hscaled : magnitude bits * 10 ^ precision
        = (((scaled * 10 ^ (precision - exactFractionDigits) : Nat) : Int) : ℚ) := by
      have hpower : (10 : ℚ) ^ precision = 10 ^ exactFractionDigits * 10 ^ (precision - exactFractionDigits) := by
        rw [← pow_add, Nat.add_sub_cancel' (by omega)]
      rw [hpower, ← mul_assoc, hunits, hexact]
      push_cast
      rfl
    rw [hscaled]
    exact nearestInteger_self _

/-! ## The conversion -/

/-- **A finite double is written as the text of the nearest number of units.** -/
theorem appendFloating_becomes (allocator : Allocator) (output : Scalars) {bits : UInt64}
    (conversion : Conversion) (hfinite : IsFinite bits) :
    ∃ units : Nat, NearestInteger (magnitude bits * 10 ^ conversion.fractionLength) units ∧
      Scalars.Becomes allocator (output.content ++ floatingText bits conversion units)
        (appendFloating allocator output bits conversion) := by
  obtain ⟨hprecision, hexact⟩ := computedDigits_le conversion.fractionLength
  obtain ⟨scaled, hscaled, hnearest⟩ := scaledValue_spec bits hfinite hexact
  refine ⟨_, nearestInteger_zeros bits _ hnearest, ?_⟩
  have hfield : (Parts.ofBits bits).exponentField ≠ 0x7ff := by
    rw [parts_exponentField]
    exact hfinite
  unfold appendFloating
  dsimp only
  rw [if_neg hfield]
  show Scalars.Becomes allocator _ ((scaledValue (Parts.ofBits bits)
    (computedDigits conversion.fractionLength)).bind _)
  rw [hscaled, Option.bind_some]
  refine Yields.bind (reversedBody_yields scaled hprecision _) ?_ fun body hbody => ?_
  · unfold floatingText
    rw [List.length_append, fieldText_length]
    omega
  · have hcontent := (Scalars.reverseFrom_zero body).trans hbody
    rw [parts_negative]
    have happend : Scalars.Becomes allocator _ (appendField allocator output
      (sign (isNegative bits) conversion) (body.reverseFrom 0) conversion true) := appendField_becomes _ _ _ _ _
    rw [hcontent] at happend
    exact happend

/-- **Fixed-precision formatting is exact.** For every finite double, precision, width and flags the text is that
of the value's nearest number of units of the last digit, the even one at a tie, in a field of the width at
least. It is written, unless storage for it was refused: the limbs always fit the capacity. -/
theorem appendFloating_exact (allocator : Allocator) (output : Scalars) (bits : UInt64) (conversion : Conversion)
    (hfinite : IsFinite bits) :
    (∃ scaled, scaledValue (Parts.ofBits bits) (computedDigits conversion.fractionLength) = some scaled) ∧
    ∃ units : Nat, NearestInteger (magnitude bits * 10 ^ conversion.fractionLength) units ∧
      (floatingText bits conversion units).length = max conversion.width.toInt.toNat
        ((sign (isNegative bits) conversion).length +
          (decimalText (conversion.has flagGroup) conversion.fractionLength units).length) ∧
      (∀ written, appendFloating allocator output bits conversion = some written →
        written.content = output.content ++ floatingText bits conversion units) ∧
      (Scalars.Grants allocator (output.content ++ floatingText bits conversion units).length →
        ∃ written, appendFloating allocator output bits conversion = some written) := by
  have hcomputed := (computedDigits_le conversion.fractionLength).2
  obtain ⟨scaled, hscaled, _⟩ := scaledValue_spec bits hfinite hcomputed
  obtain ⟨units, hnearest, hbecomes⟩ := appendFloating_becomes allocator output conversion hfinite
  exact ⟨⟨scaled, hscaled⟩, units, hnearest, fieldText_length _ _ _ _, hbecomes.exact,
    hbecomes.granted _ le_rfl⟩

/-- An allocation function that grants whatever an object can hold. -/
def generous : Allocator where
  grants := fun capacity => capacity ≤ limit
  limited := by simp

/-- Two and a half without digits after the point. -/
def tie : Conversion := ⟨0, absent, 0⟩

theorem magnitude_tie : magnitude 0x4004000000000000 * 10 ^ tie.fractionLength = 5 / 2 := by
  have hlength : tie.fractionLength = 0 := by decide
  have hfield : (0x4004000000000000 : UInt64).toNat / 2 ^ 52 % 2 ^ 11 = 1024 := by decide
  have hfraction : (0x4004000000000000 : UInt64).toNat % 2 ^ 52 = 2 ^ 50 := by decide
  unfold magnitude
  rw [hlength, hfield, hfraction]
  norm_num

theorem appendFloating_exact_tie : ∃ written,
    appendFloating generous Scalars.empty 0x4004000000000000 tie = some written ∧ written.content = ['2'] := by
  have hfinite : IsFinite 0x4004000000000000 := by
    unfold IsFinite
    decide
  obtain ⟨_, units, hnearest, _, hexact, hgranted⟩ :=
    appendFloating_exact generous Scalars.empty 0x4004000000000000 tie hfinite
  rw [magnitude_tie] at hnearest
  -- of two and three the even one
  have hunits : units = 2 := by
    obtain ⟨hclose, heven⟩ := hnearest
    have hbounds := abs_le.mp hclose
    have hlow : (2 : ℚ) ≤ units := by
      have := hbounds.2
      push_cast at this
      linarith
    have hhigh : (units : ℚ) ≤ 3 := by
      have := hbounds.1
      push_cast at this
      linarith
    have hlow' : 2 ≤ units := by exact_mod_cast hlow
    have hhigh' : units ≤ 3 := by exact_mod_cast hhigh
    by_contra hne
    have hthree : units = 3 := by omega
    subst hthree
    have hodd := heven (by norm_num)
    revert hodd
    decide
  subst hunits
  obtain ⟨written, hwritten⟩ := hgranted fun capacity hcapacity => by
    have htext : (Scalars.empty.content ++ floatingText 0x4004000000000000 tie 2).length = 1 := by decide
    rw [htext] at hcapacity
    show decide (capacity ≤ limit) = true
    rw [decide_eq_true_eq]
    exact le_trans hcapacity (by decide)
  exact ⟨written, hwritten, (hexact written hwritten).trans (by decide)⟩

/-- More digits after the point than any object can hold. -/
def endlessDigits : Conversion := ⟨0, absent, 4611686018427387904⟩

/-- **No storage** is enough for the text of zero with 2^62 digits after the point: the program is stopped. -/
theorem appendFloating_refused : IsFinite 0 ∧ endlessDigits.fractionLength = 2 ^ 62 ∧
    ∀ (allocator : Allocator) (output : Scalars), appendFloating allocator output 0 endlessDigits = none := by
  have hfinite : IsFinite 0 := by
    unfold IsFinite
    decide
  have hlength : endlessDigits.fractionLength = 2 ^ 62 := by decide
  refine ⟨hfinite, hlength, fun allocator output => ?_⟩
  obtain ⟨units, _, hbecomes⟩ := appendFloating_becomes allocator output endlessDigits hfinite
  refine hbecomes.eq_none ?_
  have htext : 2 ^ 62 ≤ (decimalText (endlessDigits.has flagGroup) endlessDigits.fractionLength units).length := by
    unfold decimalText
    rw [hlength, if_pos (by norm_num), List.length_append, List.length_cons, fractionText_length]
    omega
  have hlimit : limit = 2 ^ 61 - 1 := by decide
  unfold floatingText
  rw [List.length_append, fieldText_length, hlimit]
  omega

end Tala.Runtime.Text
