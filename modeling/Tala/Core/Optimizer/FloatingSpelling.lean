import Tala.Core.Optimizer.FloatingRounding

/-!
# `Core.Optimizer.FloatingSpelling` — spellings read and printed

`Spells` says which datum a spelling stands for: the rounding of the decimal it denotes. Reading a spelling
gives that datum (`parseFloatingValue_spells`), also where it takes a shortcut for decimals far outside the
format, and a datum of a format is printed so that it reads back (`parseFloatingValue_render`): enough
digits bring the decimal so close that it rounds to the datum.
-/

namespace Tala.Core.Optimizer.Floating

open Tala Tala.Core Tala.Library.BinaryFloat

/-! ## What spellings stand for -/

/-- ASCII digits, and the number they denote. -/
def Digits (text : List Char) : Prop := text ≠ [] ∧ ∀ digit ∈ text, isAsciiDigit digit = true

def digitsValue (text : List Char) : Nat := Nat.ofDigitChars 10 text 0

/-- An exponent is absent, or a letter with an optional sign and digits. -/
inductive ExponentText : List Char → Int → Prop
  | absent : ExponentText [] 0
  | unsigned {letter : Char} {digits : List Char} : letter ∈ ['e', 'E'] → Digits digits →
      ExponentText (letter :: digits) (digitsValue digits)
  | positive {letter : Char} {digits : List Char} : letter ∈ ['e', 'E'] → Digits digits →
      ExponentText (letter :: '+' :: digits) (digitsValue digits)
  | negative {letter : Char} {digits : List Char} : letter ∈ ['e', 'E'] → Digits digits →
      ExponentText (letter :: '-' :: digits) (-(digitsValue digits : Int))

/-- The decimal that a spelling without a sign denotes. -/
def DecimalText (spelling : List Char) (value : ℚ) : Prop :=
  ∃ (whole fraction exponentText : List Char) (exponent : Int),
    Digits (whole ++ fraction) ∧ ExponentText exponentText exponent ∧
      (spelling = whole ++ exponentText ∧ fraction = [] ∨
        spelling = whole ++ '.' :: fraction ++ exponentText) ∧
      value = digitsValue (whole ++ fraction) * 10 ^ (exponent - fraction.length)

/-- A spelling without its sign. -/
inductive SignedText : List Char → Bool → List Char → Prop
  | unsigned (text : List Char) : SignedText text false text
  | positive (text : List Char) : SignedText ('+' :: text) false text
  | negative (text : List Char) : SignedText ('-' :: text) true text

/-- The datum of a format that a spelling stands for. -/
def Spells (format : BinaryFormat) (spelling : String) (datum : FloatingValue) : Prop :=
  ∃ negative unsigned, SignedText spelling.toList negative unsigned ∧
    (unsigned = "nan".toList ∧ datum = .notANumber ∨
      unsigned = "inf".toList ∧ datum = .infinity negative ∨
      ∃ value, DecimalText unsigned value ∧ format.Rounds negative value datum)

/-! ## Digits -/

theorem digitsValue_append_zeros (digits : List Char) (count : Nat) :
    digitsValue (digits ++ List.replicate count '0') = digitsValue digits * 10 ^ count := by
  unfold digitsValue
  rw [Nat.ofDigitChars_append, Nat.ofDigitChars_replicate_zero, mul_comm]

theorem digitsValue_zeros_append (digits : List Char) (count : Nat) :
    digitsValue (List.replicate count '0' ++ digits) = digitsValue digits := by
  unfold digitsValue
  rw [Nat.ofDigitChars_append, Nat.ofDigitChars_replicate_zero, mul_zero]

theorem digitsValue_cons (digit : Char) (digits : List Char) :
    digitsValue (digit :: digits)
      = 10 ^ digits.length * (digit.toNat - '0'.toNat) + digitsValue digits := by
  unfold digitsValue
  rw [Nat.ofDigitChars_cons, Nat.ofDigitChars_eq_ofDigitChars_zero]
  simp

variable {digit : Char} {exponent : Int} {value : ℚ} {spelling : List Char} {format : BinaryFormat}

theorem isAsciiDigit_iff : isAsciiDigit digit = true ↔ '0'.toNat ≤ digit.toNat ∧ digit.toNat ≤ '9'.toNat := by
  unfold isAsciiDigit
  rw [Bool.and_eq_true, decide_eq_true_eq, decide_eq_true_eq]
  exact Iff.rfl

variable {digits rest text unsigned before fraction : List Char} {coefficient scale order : Int} {count : Nat}
  {negative : Bool} {exact : ℚ} {datum : FloatingValue}

theorem digitsValue_lt (h : ∀ digit ∈ digits, isAsciiDigit digit = true) :
    digitsValue digits < 10 ^ digits.length := by
  induction digits with
  | nil => exact Nat.one_pos
  | cons digit rest ih =>
      have hrest := ih fun d hd => h d (List.mem_cons_of_mem _ hd)
      have hdigit := (isAsciiDigit_iff.mp (h digit List.mem_cons_self)).2
      have hle : digit.toNat - '0'.toNat ≤ 9 := by
        have : '9'.toNat = '0'.toNat + 9 := rfl
        omega
      have := Nat.mul_le_mul_left (10 ^ rest.length) hle
      rw [digitsValue_cons, List.length_cons, pow_succ]
      omega

theorem le_digitsValue (h : isAsciiDigit digit = true)
    (hne : digit ≠ '0') : 10 ^ rest.length ≤ digitsValue (digit :: rest) := by
  have hdigit := (isAsciiDigit_iff.mp h).1
  have hone : 1 ≤ digit.toNat - '0'.toNat := by
    have : digit.toNat ≠ '0'.toNat := fun heq => hne (Char.toNat_inj.mp heq)
    omega
  have := Nat.mul_le_mul_left (10 ^ rest.length) hone
  rw [digitsValue_cons]
  omega

/-- Zeros at the front of a list. -/
theorem takeWhile_zeros (text : List Char) :
    text.takeWhile (· = '0') = List.replicate (text.takeWhile (· = '0')).length '0' := by
  rw [List.eq_replicate_iff]
  refine ⟨rfl, fun digit hdigit => ?_⟩
  have hall := List.all_eq_true.mp (List.all_takeWhile (l := text) (p := (· = '0'))) digit hdigit
  simpa using hall

/-- Zeros at the end of a list. -/
theorem take_append_zeros (text : List Char) :
    text.take (text.length - (text.reverse.takeWhile (· = '0')).length)
      ++ List.replicate (text.reverse.takeWhile (· = '0')).length '0' = text := by
  have hsplit : (text.reverse.dropWhile (· = '0')).reverse ++ (text.reverse.takeWhile (· = '0')).reverse
      = text := by
    rw [← List.reverse_append, List.takeWhile_append_dropWhile, List.reverse_reverse]
  have hzeros : (text.reverse.takeWhile (· = '0')).reverse
      = List.replicate (text.reverse.takeWhile (· = '0')).length '0' := by
    conv_lhs => rw [takeWhile_zeros, List.reverse_replicate]
  rw [hzeros] at hsplit
  have hlength := congrArg List.length hsplit
  rw [List.length_append, List.length_replicate] at hlength
  generalize (text.reverse.takeWhile (· = '0')).length = count at *
  generalize (text.reverse.dropWhile (· = '0')).reverse = kept at *
  rw [← hsplit, List.length_append, List.length_replicate, Nat.add_sub_cancel, List.take_left']
  rfl

theorem dropWhile_zeros_head (h : text.dropWhile (· = '0') = digit :: rest) : digit ≠ '0' := by
  have hne : text.dropWhile (· = '0') ≠ [] := by simp [h]
  have hhead := List.head_dropWhile_not (· = '0') hne
  simp only [h, List.head_cons, decide_eq_false_iff_not] at hhead
  exact hhead

/-- The coefficient and the power of ten denote what the digits denote; a coefficient other than zero has
as many digits as counted. -/
theorem significant_spec (hdigits : ∀ digit ∈ digits, isAsciiDigit digit = true)
    (h : significant digits exponent = some (coefficient, scale, count)) :
    ∃ magnitude : Nat, coefficient = magnitude ∧
      (digitsValue digits : ℚ) * 10 ^ exponent = magnitude * 10 ^ scale ∧
      (magnitude ≠ 0 → 10 ^ (count - 1) ≤ magnitude ∧ magnitude < 10 ^ count ∧ 1 ≤ count) := by
  unfold significant at h
  dsimp only at h
  have hvalue : digitsValue digits = digitsValue (digits.dropWhile (· = '0')) := by
    conv_lhs => rw [← List.takeWhile_append_dropWhile (p := (· = '0')) (l := digits), takeWhile_zeros,
      digitsValue_zeros_append]
  rw [hvalue]
  have hkept : ∀ digit ∈ digits.dropWhile (· = '0'), isAsciiDigit digit = true :=
    fun digit hdigit => hdigits digit (List.dropWhile_sublist _ |>.subset hdigit)
  have hhead : ∀ digit rest, digits.dropWhile (· = '0') = digit :: rest → digit ≠ '0' :=
    fun _ _ => dropWhile_zeros_head
  generalize digits.dropWhile (· = '0') = kept at *
  split at h
  · next hempty =>
    obtain rfl := List.isEmpty_iff.mp hempty
    cases h
    exact ⟨0, rfl, by simp [digitsValue], fun hne => absurd rfl hne⟩
  · next hnonempty =>
    split at h
    · cases h
    · next hfew =>
      cases h
      refine ⟨_, rfl, ?_, fun _ => ?_⟩
      · have happend := take_append_zeros kept
        generalize (kept.reverse.takeWhile (· = '0')).length = zeros at *
        conv_lhs => rw [← happend, digitsValue_append_zeros]
        unfold digitsValue
        push_cast
        rw [zpow_add₀ (by norm_num), zpow_natCast]
        ring
      · have happend := take_append_zeros kept
        generalize hzeros : (kept.reverse.takeWhile (· = '0')).length = zeros at *
        have hshort : ∀ digit ∈ kept.take (kept.length - zeros), isAsciiDigit digit = true :=
          fun digit hdigit => hkept digit (List.take_subset _ _ hdigit)
        cases hcut : kept.take (kept.length - zeros) with
        | nil =>
            -- the first digit that is kept is no zero
            rw [hcut, List.nil_append] at happend
            cases zeros with
            | zero => simp [← happend] at hnonempty
            | succ zeros =>
                rw [List.replicate_succ] at happend
                exact absurd rfl (hhead _ _ happend.symm)
        | cons digit rest =>
            rw [hcut] at happend hshort
            have hdigit := hhead digit _ happend.symm
            refine ⟨?_, digitsValue_lt hshort, by simp⟩
            exact le_digitsValue (hshort digit List.mem_cons_self) hdigit

theorem significant_isSome (digits : List Char) (exponent : Int)
    (h : digits.length ≤ maximumFoldedSignificantDigits) :
    ∃ coefficient scale count, significant digits exponent = some (coefficient, scale, count) ∧
      (scale = 0 ∨ exponent ≤ scale ∧ scale ≤ exponent + digits.length) := by
  unfold significant
  dsimp only
  have hkept := (List.dropWhile_sublist (fun c => decide (c = '0')) (l := digits)).length_le
  split
  · exact ⟨_, _, _, rfl, Or.inl rfl⟩
  · rw [if_neg]
    · refine ⟨_, _, _, rfl, Or.inr ?_⟩
      have hzeros := (List.takeWhile_sublist (fun c => decide (c = '0'))
        (l := (digits.dropWhile (fun c => decide (c = '0'))).reverse)).length_le
      rw [List.length_reverse] at hzeros
      omega
    · rw [List.length_take]
      omega

/-! ## Reading -/

theorem readDigits_spec {value : Int} (h : readDigits negative digits = some value) :
    Digits digits ∧ value = if negative then -(digitsValue digits : Int) else digitsValue digits := by
  unfold readDigits at h
  split at h
  · cases h
  · next hvalid =>
    simp only [Bool.or_eq_true, not_or, Bool.not_eq_true, List.isEmpty_eq_false_iff,
      List.any_eq_false, Bool.not_eq_true', Bool.not_eq_false] at hvalid
    refine ⟨⟨hvalid.1.1, hvalid.2⟩, ?_⟩
    exact (Option.some.inj h).symm

theorem exponentValue_spec {letter : Char} {value : Int}
    (hletter : letter ∈ ['e', 'E']) (h : exponentValue (letter :: rest) = some value) :
    ExponentText (letter :: rest) value := by
  unfold exponentValue readSignedDecimal at h
  dsimp only at h
  split at h
  · cases h
  · obtain ⟨hdigits, rfl⟩ := readDigits_spec h
    exact .positive hletter hdigits
  · obtain ⟨hdigits, rfl⟩ := readDigits_spec h
    exact .negative hletter hdigits
  · obtain ⟨hdigits, rfl⟩ := readDigits_spec h
    exact .unsigned hletter hdigits

/-- The text before and from the first point or exponent letter. -/
theorem span_split (p : Char → Bool) (text : List Char) :
    ∃ before after, text.span p = (before, after) ∧ text = before ++ after ∧
      (after = [] ∨ ∃ letter rest, after = letter :: rest ∧ p letter = false) := by
  refine ⟨text.takeWhile p, text.dropWhile p, List.span_eq_takeWhile_dropWhile p text,
    List.takeWhile_append_dropWhile.symm, ?_⟩
  cases hafter : text.dropWhile p with
  | nil => exact Or.inl rfl
  | cons letter rest =>
      have hne : text.dropWhile p ≠ [] := by simp [hafter]
      have hhead := List.head_dropWhile_not p hne
      simp only [hafter, List.head_cons] at hhead
      exact Or.inr ⟨letter, rest, rfl, hhead⟩

/-- **A spelling that is read denotes the decimal that is read.** -/
theorem parseDecimal_spec (h : parseDecimal spelling = some (coefficient, scale, count)) :
    ∃ magnitude : Nat, coefficient = magnitude ∧ DecimalText spelling (magnitude * 10 ^ scale) ∧
      (magnitude ≠ 0 → 10 ^ (count - 1) ≤ magnitude ∧ magnitude < 10 ^ count ∧ 1 ≤ count) := by
  unfold parseDecimal mantissaDigits at h
  obtain ⟨mantissa, exponentText, hspan, hspelling, hexponentText⟩ :=
    span_split (fun character => !(['e', 'E'].contains character)) spelling
  obtain ⟨whole, fractionWithPoint, hspan', hmantissa, hfraction⟩ := span_split (· ≠ '.') mantissa
  simp only [hspan, hspan'] at h
  split at h
  · cases h
  next exponent hexponent =>
  split at h
  · cases h
  next hvalid =>
  simp only [Bool.or_eq_true, not_or, Bool.not_eq_true, List.isEmpty_eq_false_iff,
    List.any_eq_false, Bool.not_eq_true', Bool.not_eq_false] at hvalid
  obtain ⟨magnitude, hcoefficient, hvalue, hcount⟩ := significant_spec hvalid.2 h
  refine ⟨magnitude, hcoefficient, ?_, hcount⟩
  refine ⟨whole, fractionWithPoint.drop 1, exponentText, exponent, hvalid, ?_, ?_, hvalue.symm⟩
  · rcases hexponentText with rfl | ⟨letter, rest, rfl, hletter⟩
    · cases hexponent
      exact .absent
    · refine exponentValue_spec ?_ hexponent
      rw [Bool.not_eq_false', List.contains_iff_mem] at hletter
      exact hletter
  · rcases hfraction with rfl | ⟨point, fraction, rfl, hpoint⟩
    · left
      rw [List.append_nil] at hmantissa
      exact ⟨by rw [hspelling, hmantissa], rfl⟩
    · right
      obtain rfl : point = '.' := by simpa using hpoint
      rw [hspelling, hmantissa, List.drop_one, List.tail_cons]

theorem decimalRational_eq
    (h : decimalRational coefficient scale = some value) : value = coefficient * 10 ^ scale := by
  unfold decimalRational at h
  split at h
  · cases h
  · split at h
    · next hnonneg =>
      cases h
      obtain ⟨n, rfl⟩ := Int.eq_ofNat_of_zero_le hnonneg
      rw [Rat.mkRat_eq_div, Int.toNat_natCast, zpow_natCast]
      push_cast
      rw [div_one]
    · next hneg =>
      cases h
      obtain ⟨n, hn⟩ := Int.eq_ofNat_of_zero_le (show 0 ≤ -scale by omega)
      obtain rfl : scale = -(n : Int) := by omega
      rw [Rat.mkRat_eq_div, neg_neg, Int.toNat_natCast, zpow_neg, zpow_natCast]
      push_cast
      rw [div_eq_mul_inv]

/-- What reading and printing rely on in a format. -/
structure Supported (format : BinaryFormat) : Prop where
  maximum_nonneg : 0 ≤ format.maximumExponent
  maximum_le : format.maximumExponent ≤ 16383
  least_nonpos : format.leastExponent ≤ 0
  le_least : -16494 ≤ format.leastExponent
  digits : 2 ^ format.precision < 10 ^ (maximumDigits format - 1)
  one_le_digits : 1 ≤ maximumDigits format
  digits_le : maximumDigits format ≤ 36

theorem supported_of_formatFor {valueType : Ty} (h : formatFor valueType = some format) : Supported format := by
  unfold formatFor at h
  split at h
  all_goals
    first
    | cases h
      refine ⟨?_, ?_, ?_, ?_, ?_, ?_, ?_⟩ <;> simp [Format.leastExponent, maximumDigits]
    | cases h

theorem ten_zpow_pos (exponent : Int) : (0 : ℚ) < 10 ^ exponent := zpow_pos (by norm_num) exponent

/-- Powers of ten above one, in powers of two. -/
theorem two_zpow_le_ten_zpow (h : 0 ≤ exponent) : (2 : ℚ) ^ (3 * exponent) ≤ 10 ^ exponent := by
  obtain ⟨n, rfl⟩ := Int.eq_ofNat_of_zero_le h
  rw [zpow_mul, show ((2 : ℚ) ^ (3 : Int)) = 8 by norm_num, zpow_natCast, zpow_natCast]
  exact pow_le_pow_left₀ (by norm_num) (by norm_num) n

/-- Powers of ten below one, in powers of two. -/
theorem ten_zpow_le_two_zpow (h : exponent ≤ 0) : (10 : ℚ) ^ exponent ≤ 2 ^ (3 * exponent) := by
  have hle := two_zpow_le_ten_zpow (show 0 ≤ -exponent by omega)
  rw [mul_neg, zpow_neg, zpow_neg] at hle
  exact (inv_le_inv₀ (two_zpow_pos _) (ten_zpow_pos _)).mp hle

/-- The first digit of a coefficient bounds the decimal from both sides. -/
theorem decimalOrder_bounds {magnitude : Nat} (scale : Int) (hle : 10 ^ (count - 1) ≤ magnitude)
    (hlt : magnitude < 10 ^ count) (hone : 1 ≤ count) :
    (10 : ℚ) ^ decimalOrder count scale ≤ magnitude * 10 ^ scale ∧
      (magnitude : ℚ) * 10 ^ scale < 10 ^ (decimalOrder count scale + 1) := by
  have hscale := ten_zpow_pos scale
  unfold decimalOrder
  constructor
  · rw [zpow_add₀ (by norm_num), show (count : Int) - 1 = (count - 1 : Nat) by omega, zpow_natCast]
    exact mul_le_mul_of_nonneg_right (by exact_mod_cast hle) hscale.le
  · rw [show (count : Int) - 1 + scale + 1 = (count : Int) + scale by ring, zpow_add₀ (by norm_num),
      zpow_natCast]
    exact mul_lt_mul_of_pos_right (by exact_mod_cast hlt) hscale

theorem overflow_le_ceiling (format : BinaryFormat) : format.overflow ≤ format.ceiling := by
  have := two_zpow_pos (format.maximumExponent - format.precision)
  unfold Format.overflow
  linarith

/-- A decimal whose first digit stands far to the left overflows. -/
theorem rounds_of_large (hformat : Supported format)
    (hle : 10 ^ order ≤ exact) (horder : format.maximumExponent < order) (negative : Bool) :
    format.Rounds negative exact (.infinity negative) := by
  have hmaximum := hformat.maximum_nonneg
  refine ⟨rfl, le_trans (overflow_le_ceiling format) (le_trans ?_ hle)⟩
  refine le_trans ?_ (two_zpow_le_ten_zpow (show 0 ≤ order by omega))
  exact zpow_le_zpow_right₀ (by norm_num) (by omega)

/-- A decimal whose first digit stands far to the right of the least magnitude rounds to zero. -/
theorem rounds_of_small (hformat : Supported format)
    (hexact : 0 ≤ exact) (hlt : exact < 10 ^ (order + 1)) (horder : order < format.leastExponent / 3 - 2)
    (negative : Bool) : format.Rounds negative exact (.finite negative 0) := by
  have hleast := hformat.least_nonpos
  have hmaximum := hformat.maximum_nonneg
  have hprecise := format.precise
  have htiny : exact < 2 ^ (format.leastExponent - 1) :=
    lt_of_lt_of_le hlt (le_trans (ten_zpow_le_two_zpow (show order + 1 ≤ 0 by omega))
      (zpow_le_zpow_right₀ (by norm_num) (by omega)))
  refine ⟨rfl, lt_of_lt_of_le htiny (le_trans (zpow_le_zpow_right₀ (by norm_num) ?_)
    (two_zpow_le_overflow format)), ?_⟩
  · omega
  · have hquantum := two_zpow_pos format.leastExponent
    have hhalf : exact / 2 ^ format.leastExponent < 1 / 2 := by
      rw [zpow_sub_one₀ (by norm_num)] at htiny
      rw [div_lt_iff₀ hquantum]
      linarith
    have hnonneg : 0 ≤ exact / 2 ^ format.leastExponent := div_nonneg hexact hquantum.le
    have hzero : NearestInteger (exact / 2 ^ format.leastExponent) ((0 : Nat) : Int) := by
      unfold NearestInteger
      rw [Int.natCast_zero, Int.cast_zero, sub_zero, abs_of_nonneg hnonneg]
      exact ⟨hhalf.le, fun _ => Even.zero⟩
    have hnearest := nearest_of_integer hexact le_rfl (Or.inl rfl)
      (lt_of_lt_of_le htiny (zpow_le_zpow_right₀ (by norm_num) (by omega))) hzero
    rw [Nat.cast_zero, zero_mul] at hnearest
    exact hnearest

/-- A spelling without a sign that is read as a decimal is read as its rounding. -/
theorem parseFloatingValue_rounds (hformat : Supported format)
    (hstrip : stripLeadingSign spelling = (negative, unsigned)) (hnan : unsigned ≠ "nan".toList)
    (hinf : unsigned ≠ "inf".toList) (h : parseFloatingValue format spelling = some datum) :
    ∃ coefficient scale count, parseDecimal unsigned = some (coefficient, scale, count) ∧
      format.Rounds negative (coefficient * 10 ^ scale) datum := by
  unfold parseFloatingValue at h
  simp only [hstrip, if_neg hnan, if_neg hinf] at h
  split at h
  · cases h
  next coefficient scale count hparse =>
  refine ⟨coefficient, scale, count, hparse, ?_⟩
  obtain ⟨magnitude, rfl, _, hcount⟩ := parseDecimal_spec hparse
  rw [Int.cast_natCast]
  have hnonneg : (0 : ℚ) ≤ magnitude * 10 ^ scale := by
    have := ten_zpow_pos scale
    positivity
  split at h
  · next hzero =>
    cases h
    have hzero' : magnitude = 0 := by exact_mod_cast hzero
    rw [hzero', Nat.cast_zero, zero_mul]
    exact rounds_zero format negative
  next hne =>
  obtain ⟨hle, hlt, hone⟩ := hcount (by exact_mod_cast hne)
  have hbounds := decimalOrder_bounds scale hle hlt hone
  split at h
  · next hlarge =>
    cases h
    exact rounds_of_large hformat hbounds.1 hlarge negative
  split at h
  · next hsmall =>
    cases h
    exact rounds_of_small hformat hnonneg hbounds.2 (of_decide_eq_true hsmall) negative
  · obtain ⟨value, hvalue, rfl⟩ := Option.map_eq_some_iff.mp h
    obtain rfl := decimalRational_eq hvalue
    rw [Int.cast_natCast]
    exact roundToFormat_rounds format negative hnonneg

theorem stripLeadingSign_spec
    (h : stripLeadingSign spelling = (negative, unsigned)) : SignedText spelling negative unsigned := by
  unfold stripLeadingSign at h
  split at h
  · cases h
    exact .positive _
  · cases h
    exact .negative _
  · cases h
    exact .unsigned _

/-- **Reading a spelling gives the datum it stands for.** -/
theorem parseFloatingValue_spells (hformat : Supported format) {spelling : String}
    (h : parseFloatingValue format spelling.toList = some datum) :
    Spells format spelling datum := by
  obtain ⟨negative, unsigned, hstrip⟩ :
      ∃ negative unsigned, stripLeadingSign spelling.toList = (negative, unsigned) := ⟨_, _, rfl⟩
  refine ⟨negative, unsigned, stripLeadingSign_spec hstrip, ?_⟩
  by_cases hnan : unsigned = "nan".toList
  · unfold parseFloatingValue at h
    simp only [hstrip, if_pos hnan] at h
    exact Or.inl ⟨hnan, (Option.some.inj h).symm⟩
  by_cases hinf : unsigned = "inf".toList
  · unfold parseFloatingValue at h
    simp only [hstrip, if_neg hnan, if_pos hinf] at h
    exact Or.inr (Or.inl ⟨hinf, (Option.some.inj h).symm⟩)
  obtain ⟨coefficient, scale, count, hparse, hrounds⟩ :=
    parseFloatingValue_rounds hformat hstrip hnan hinf h
  obtain ⟨magnitude, rfl, htext, _⟩ := parseDecimal_spec hparse
  exact Or.inr (Or.inr ⟨_, htext, hrounds⟩)

/-! ## Printing -/

theorem toDigits_bounds {value : Nat} (h : 0 < value) : ∃ n, (Nat.toDigits 10 value).length = n + 1 ∧
    10 ^ n ≤ value ∧ value < 10 ^ (n + 1) := by
  obtain ⟨n, hn⟩ := Nat.exists_eq_succ_of_ne_zero (Nat.length_toDigits_pos (b := 10) (n := value)).ne'
  refine ⟨n, hn, ?_, (Nat.length_toDigits_le_iff (by norm_num) (by omega)).mp (by omega)⟩
  rcases Nat.eq_zero_or_pos n with rfl | hpos
  · exact h
  · by_contra hnot
    have := (Nat.length_toDigits_le_iff (by norm_num) hpos).mpr (not_le.mp hnot)
    omega

theorem isAsciiDigit_toDigits {value : Nat} (h : digit ∈ Nat.toDigits 10 value) :
    isAsciiDigit digit = true := by
  have hdigit := Nat.isDigit_of_mem_toDigits (by norm_num) le_rfl h
  rw [isAsciiDigit_iff]
  simp only [Char.isDigit, Bool.and_eq_true, decide_eq_true_eq] at hdigit
  exact hdigit

theorem floorLog10_spec (h : 0 < value) :
    10 ^ floorLog10 value ≤ value ∧ value < 10 ^ (floorLog10 value + 1) := by
  obtain ⟨top, htop⟩ := Int.eq_ofNat_of_zero_le (Rat.num_pos.mpr h).le
  have hpos : 0 < top := by
    have := Rat.num_pos.mpr h
    omega
  obtain ⟨m, hm, hm1, hm2⟩ := toDigits_bounds hpos
  obtain ⟨n, hn, hn1, hn2⟩ := toDigits_bounds value.den_pos
  have hestimate : ((showInteger value.num).length : Int) - (showInteger (value.den : Int)).length
      = (m : Int) - n := by
    rw [htop]
    show ((Nat.toDigits 10 top).length : Int) - (Nat.toDigits 10 value.den).length = _
    rw [hm, hn]
    push_cast
    ring
  have hbounds := estimate_bounds 10 (by norm_num) h (m := m) (n := n) (by rw [htop]; exact_mod_cast hm1)
    (by rw [htop]; exact_mod_cast hm2) (by exact_mod_cast hn1) (by exact_mod_cast hn2)
  have horder := comparePower_lt_iff 10 (by norm_num) value.num ((m : Int) - n)
    (Int.natCast_pos.mpr value.den_pos)
  rw [Int.cast_natCast, Rat.num_div_den] at horder
  unfold floorLog10
  dsimp only
  rw [hestimate]
  exact_mod_cast floorLog_spec hbounds.1 hbounds.2 horder

/-- Zeros at the end of a fraction do not count. -/
theorem compactFraction_spec (digit : Char) {trailing : List Char}
    (hdigits : ∀ d ∈ trailing, isAsciiDigit d = true) :
    ∃ fraction, (let compactFraction := (trailing.reverse.dropWhile (· = '0')).reverse
        if compactFraction.isEmpty then ['0'] else compactFraction) = fraction ∧
      (∀ d ∈ fraction, isAsciiDigit d = true) ∧ fraction.length ≤ trailing.length + 1 ∧
      (digitsValue (digit :: fraction) : ℚ) * 10 ^ (-(fraction.length : Int))
        = digitsValue (digit :: trailing) * 10 ^ (-(trailing.length : Int)) := by
  have hsplit : (trailing.reverse.dropWhile (· = '0')).reverse
      ++ List.replicate (trailing.reverse.takeWhile (· = '0')).length '0' = trailing := by
    rw [← List.reverse_inj, List.reverse_append, List.reverse_replicate, List.reverse_reverse,
      ← takeWhile_zeros, List.takeWhile_append_dropWhile]
  generalize (trailing.reverse.takeWhile (· = '0')).length = count at *
  generalize (trailing.reverse.dropWhile (· = '0')).reverse = compact at *
  have hvalue : ∀ (text : List Char) (zeros : Nat),
      (digitsValue (digit :: (text ++ List.replicate zeros '0')) : ℚ)
        * 10 ^ (-((text ++ List.replicate zeros '0').length : Int))
        = digitsValue (digit :: text) * 10 ^ (-(text.length : Int)) := by
    intro text zeros
    have hne : (10 : ℚ) ^ zeros ≠ 0 := by positivity
    rw [← List.cons_append, digitsValue_append_zeros, List.length_append, List.length_replicate]
    push_cast
    rw [neg_add, zpow_add₀ (by norm_num), zpow_neg _ (zeros : Int), zpow_natCast]
    field_simp
  subst hsplit
  refine ⟨_, rfl, ?_⟩
  dsimp only
  split
  · next hempty =>
    obtain rfl := List.isEmpty_iff.mp hempty
    refine ⟨fun d hd => ?_, by simp, ?_⟩
    · rw [List.mem_singleton.mp hd]
      rfl
    rw [List.nil_append] at *
    have hone := hvalue [] 1
    have hcount := hvalue [] count
    rw [List.nil_append] at hone hcount
    exact hone.trans hcount.symm
  · refine ⟨fun d hd => hdigits d (List.mem_append_left _ hd), ?_, (hvalue compact count).symm⟩
    rw [List.length_append]
    omega

/-- A nonnegative integer with a known number of digits is printed without padding. -/
theorem padded_toDigits {value : Nat} (hle : 10 ^ count ≤ value) (hlt : value < 10 ^ (count + 1)) :
    ∃ digit trailing, List.replicate (count + 1 - (Nat.toDigits 10 value).length) '0'
        ++ Nat.toDigits 10 value = digit :: trailing ∧
      trailing.length = count ∧ (∀ d ∈ digit :: trailing, isAsciiDigit d = true) ∧
      digitsValue (digit :: trailing) = value := by
  obtain ⟨n, hn, hn1, hn2⟩ := toDigits_bounds (lt_of_lt_of_le (by positivity) hle)
  obtain rfl : n = count := by
    have hle' := (Nat.pow_lt_pow_iff_right (by norm_num)).mp (lt_of_le_of_lt hle hn2)
    have hge' := (Nat.pow_lt_pow_iff_right (by norm_num)).mp (lt_of_le_of_lt hn1 hlt)
    omega
  rw [hn, Nat.sub_self, List.replicate_zero, List.nil_append]
  cases htext : Nat.toDigits 10 value with
  | nil =>
      rw [htext] at hn
      cases hn
  | cons digit trailing =>
      refine ⟨digit, trailing, rfl, ?_, fun d hd => ?_, ?_⟩
      · rw [htext] at hn
        simpa using hn
      · rw [← htext] at hd
        exact isAsciiDigit_toDigits hd
      · rw [← htext]
        exact Nat.ofDigitChars_ten_toDigits

/-- The rounding of a value to a number of decimal digits. -/
theorem scaled_spec (h : 0 < value) (count : Nat) :
    ∃ scaled : Nat, (let decimalShift : Int := (count + 1 : Nat) - 1 - floorLog10 value
        if decimalShift ≥ 0 then roundRatioToEven (mkRat (value.num * 10 ^ decimalShift.toNat) value.den)
        else roundRatioToEven (mkRat value.num (value.den * 10 ^ (-decimalShift).toNat))) = scaled ∧
      10 ^ count ≤ scaled ∧ scaled ≤ 10 ^ (count + 1) ∧
      |(scaled : ℚ) * 10 ^ (floorLog10 value - count) - value| * 2 ≤ 10 ^ (floorLog10 value - count) := by
  obtain ⟨hle, hlt⟩ := floorLog10_spec h
  generalize floorLog10 value = order at *
  have hvalue := Rat.num_div_den value
  have hden : (value.den : ℚ) ≠ 0 := by exact_mod_cast value.den_nz
  have hshift : ((count + 1 : Nat) : Int) - 1 - order = -(order - count) := by
    push_cast
    ring
  have hratio : (let decimalShift : Int := (count + 1 : Nat) - 1 - order
      if decimalShift ≥ 0 then roundRatioToEven (mkRat (value.num * 10 ^ decimalShift.toNat) value.den)
      else roundRatioToEven (mkRat value.num (value.den * 10 ^ (-decimalShift).toNat)))
        = roundRatioToEven (value / 10 ^ (order - count)) := by
    dsimp only
    rw [hshift]
    generalize order - (count : Int) = power
    split
    · next hnonneg =>
      obtain ⟨n, hn⟩ := Int.eq_ofNat_of_zero_le hnonneg
      obtain rfl : power = -(n : Int) := by omega
      rw [neg_neg, Int.toNat_natCast, Rat.mkRat_eq_div, zpow_neg, zpow_natCast, div_inv_eq_mul]
      push_cast
      rw [mul_div_right_comm, hvalue]
    · next hneg =>
      obtain ⟨n, rfl⟩ := Int.eq_ofNat_of_zero_le (show 0 ≤ power by omega)
      rw [neg_neg, Int.toNat_natCast, Rat.mkRat_eq_div, zpow_natCast]
      push_cast
      rw [← div_div, hvalue]
  rw [hratio]
  have hunit := ten_zpow_pos (order - count)
  have hnonneg : 0 ≤ value / 10 ^ (order - count) := div_nonneg h.le hunit.le
  obtain ⟨scaled, hscaled⟩ := Int.eq_ofNat_of_zero_le (roundRatioToEven_nonneg hnonneg)
  have hhalf := (roundRatioToEven_spec hnonneg).1
  rw [hscaled, Int.cast_natCast] at hhalf
  have hlower : (10 : ℚ) ^ count ≤ value / 10 ^ (order - count) := by
    rw [le_div_iff₀ hunit, ← zpow_natCast, ← zpow_add₀ (by norm_num)]
    rwa [show (count : Int) + (order - count) = order by ring]
  have hupper : value / 10 ^ (order - count) < (10 : ℚ) ^ (count + 1) := by
    rw [div_lt_iff₀ hunit, ← zpow_natCast, ← zpow_add₀ (by norm_num)]
    rwa [show ((count + 1 : Nat) : Int) + (order - count) = order + 1 by push_cast; ring]
  have hbounds := abs_le.mp hhalf
  refine ⟨scaled, hscaled, ?_, ?_, ?_⟩
  · have : (10 : ℚ) ^ count < scaled + 1 := by linarith
    exact Nat.lt_succ_iff.mp (by exact_mod_cast this)
  · have : (scaled : ℚ) < 10 ^ (count + 1) + 1 := by linarith
    exact Nat.lt_succ_iff.mp (by exact_mod_cast this)
  · have hfactor : (scaled : ℚ) * 10 ^ (order - count) - value
        = -(value / 10 ^ (order - count) - scaled) * 10 ^ (order - count) := by
      field_simp
      ring
    rw [hfactor, abs_mul, abs_neg, abs_of_pos hunit]
    nlinarith

/-- A value is printed as its rounding to so many digits: one digit, a point, the rest, and an exponent. -/
theorem renderScientific_spec (h : 0 < value) (count : Nat) :
    ∃ (digit : Char) (fraction : List Char) (exponent : Int),
      renderScientific (count + 1) value = digit :: '.' :: fraction ++ 'e' :: showInteger exponent ∧
      (∀ d ∈ digit :: fraction, isAsciiDigit d = true) ∧ fraction.length ≤ count + 1 ∧
      (exponent = floorLog10 value ∨ exponent = floorLog10 value + 1) ∧
      |(digitsValue (digit :: fraction) : ℚ) * 10 ^ (exponent - fraction.length) - value| * 2
        ≤ 10 ^ (floorLog10 value - count) := by
  obtain ⟨scaled, hscaled, hle, hlt, hclose⟩ := scaled_spec h count
  unfold renderScientific
  dsimp only at hscaled ⊢
  rw [hscaled]
  -- a carry into a further digit makes the digits 1, 0, 0 …
  obtain ⟨significand, exponent, hsignificand, hexponent, hcases, hle', hlt', hvalue⟩ :
      ∃ (significand : Nat) (exponent : Int),
        (if (scaled : Int) ≥ 10 ^ (count + 1) then (scaled : Int).tdiv 10 else scaled) = significand ∧
        (if (scaled : Int) ≥ 10 ^ (count + 1) then floorLog10 value + 1 else floorLog10 value) = exponent ∧
        (exponent = floorLog10 value ∨ exponent = floorLog10 value + 1) ∧
        10 ^ count ≤ significand ∧ significand < 10 ^ (count + 1) ∧
        (significand : ℚ) * 10 ^ (exponent - count) = scaled * 10 ^ (floorLog10 value - count) := by
    by_cases hcarry : (scaled : Int) ≥ 10 ^ (count + 1)
    · obtain rfl : scaled = 10 ^ (count + 1) := le_antisymm hlt (by exact_mod_cast hcarry)
      refine ⟨10 ^ count, floorLog10 value + 1, ?_, by rw [if_pos hcarry], Or.inr rfl, le_rfl,
        Nat.pow_lt_pow_right (by norm_num) (by omega), ?_⟩
      · rw [if_pos hcarry, pow_succ]
        push_cast
        rw [Int.mul_tdiv_cancel _ (by norm_num)]
      · rw [show floorLog10 value + 1 - (count : Int) = floorLog10 value - count + 1 by ring,
          zpow_add_one₀ (by norm_num)]
        push_cast
        ring
    · refine ⟨scaled, floorLog10 value, by rw [if_neg hcarry], by rw [if_neg hcarry], Or.inl rfl, hle, ?_,
        rfl⟩
      exact_mod_cast not_le.mp hcarry
  rw [hsignificand, hexponent]
  obtain ⟨digit, trailing, htext, hlength, hdigits, hnumber⟩ := padded_toDigits hle' hlt'
  obtain ⟨fraction, hfraction, hfractiondigits, hshort, hcompact⟩ :=
    compactFraction_spec digit fun d hd => hdigits d (List.mem_cons_of_mem _ hd)
  have hshown : showInteger (significand : Int) = Nat.toDigits 10 significand := rfl
  dsimp only at hfraction
  rw [hshown, htext, List.drop_one, List.tail_cons, List.take_succ_cons, List.take_zero, hfraction]
  refine ⟨digit, fraction, exponent, rfl, ?_, by omega, hcases, ?_⟩
  · intro d hd
    rcases List.mem_cons.mp hd with rfl | hd
    · exact hdigits d List.mem_cons_self
    · exact hfractiondigits d hd
  · have hsame : (digitsValue (digit :: fraction) : ℚ) * 10 ^ (exponent - fraction.length)
        = scaled * 10 ^ (floorLog10 value - count) := by
      rw [← hvalue, sub_eq_add_neg exponent, zpow_add₀ (by norm_num), mul_comm ((10 : ℚ) ^ exponent),
        ← mul_assoc, hcompact, hlength, hnumber, sub_eq_add_neg exponent, zpow_add₀ (by norm_num)]
      ring
    rw [hsame]
    exact hclose

theorem isAsciiDigit_ne {letter : Char} (h : isAsciiDigit digit = true)
    (hletter : isAsciiDigit letter = false) : digit ≠ letter := by
  rintro rfl
  rw [h] at hletter
  cases hletter

theorem readDigits_toDigits {value : Nat} (h : value < 10 ^ 19) (negative : Bool) :
    readDigits negative (Nat.toDigits 10 value) = some (if negative then -(value : Int) else value) := by
  have hlength := (Nat.length_toDigits_le_iff (b := 10) (k := 19) (by norm_num) (by norm_num)).mpr h
  unfold readDigits
  rw [if_neg, Nat.ofDigitChars_ten_toDigits]
  simp only [Bool.or_eq_true, not_or, Bool.not_eq_true, List.isEmpty_eq_false_iff, List.any_eq_false,
    Bool.not_eq_true', Bool.not_eq_false, decide_eq_false_iff_not]
  exact ⟨⟨Nat.toDigits_ne_nil, by omega⟩, fun d hd => isAsciiDigit_toDigits hd⟩

/-- A printed exponent is read back. -/
theorem readSignedDecimal_showInteger (h : exponent.natAbs < 10 ^ 19) :
    readSignedDecimal (showInteger exponent) = some exponent := by
  cases exponent with
  | negSucc n =>
      have hread := readDigits_toDigits (show n + 1 < 10 ^ 19 by simpa using h) true
      exact hread
  | ofNat n =>
      have hread := readDigits_toDigits (show n < 10 ^ 19 by simpa using h) false
      show readSignedDecimal (Nat.toDigits 10 n) = some (n : Int)
      cases htext : Nat.toDigits 10 n with
      | nil => exact absurd htext Nat.toDigits_ne_nil
      | cons digit rest =>
          have hdigit : isAsciiDigit digit = true :=
            isAsciiDigit_toDigits (by rw [htext]; exact List.mem_cons_self)
          have hplus : digit ≠ '+' := isAsciiDigit_ne hdigit (by decide)
          have hminus : digit ≠ '-' := isAsciiDigit_ne hdigit (by decide)
          rw [htext] at hread
          unfold readSignedDecimal
          split
          · next heq => cases heq
          · next heq => exact absurd (List.cons.inj heq).1 hplus
          · next heq => exact absurd (List.cons.inj heq).1 hminus
          · exact hread

/-- The part of a list before the first element that fails a test. -/
theorem span_append (p : Char → Bool) (letter : Char) (after : List Char)
    (hbefore : ∀ c ∈ before, p c = true) (hletter : p letter = false) :
    (before ++ letter :: after).span p = (before, letter :: after) := by
  rw [List.span_eq_takeWhile_dropWhile, List.takeWhile_append_of_pos hbefore,
    List.dropWhile_append_of_pos hbefore, List.takeWhile_cons_of_neg (by simp [hletter]),
    List.dropWhile_cons_of_neg (by simp [hletter]), List.append_nil]

/-- **A decimal in scientific form is read back.** -/
theorem parseDecimal_scientific (hdigits : ∀ d ∈ digit :: fraction, isAsciiDigit d = true)
    (hlength : fraction.length + 1 ≤ maximumFoldedSignificantDigits) (hexponent : exponent.natAbs < 10 ^ 19) :
    ∃ coefficient scale count,
      parseDecimal (digit :: '.' :: fraction ++ 'e' :: showInteger exponent)
        = some (coefficient, scale, count) ∧
      (coefficient : ℚ) * 10 ^ scale = digitsValue (digit :: fraction) * 10 ^ (exponent - fraction.length) ∧
      (scale = 0 ∨ exponent - fraction.length ≤ scale ∧ scale ≤ exponent + 1) := by
  have hmantissa : ∀ c ∈ digit :: '.' :: fraction, (!(['e', 'E'].contains c)) = true := by
    intro c hc
    rw [Bool.not_eq_true', List.contains_eq_mem, decide_eq_false_iff_not]
    intro hletter
    have hnot : isAsciiDigit c = false ∧ c ≠ '.' := by
      rcases List.mem_cons.mp hletter with rfl | hletter
      · decide
      · rw [List.mem_singleton.mp hletter]
        decide
    rcases List.mem_cons.mp hc with rfl | hc
    · exact absurd (hdigits c List.mem_cons_self) (by simp [hnot.1])
    · rcases List.mem_cons.mp hc with rfl | hc
      · exact hnot.2 rfl
      · exact absurd (hdigits c (List.mem_cons_of_mem _ hc)) (by simp [hnot.1])
  have hspan := span_append (fun c => !(['e', 'E'].contains c)) 'e' (showInteger exponent) hmantissa
    (by decide)
  have hpoint : (digit :: '.' :: fraction).span (· ≠ '.') = ([digit], '.' :: fraction) := by
    refine span_append (fun c => decide (c ≠ '.')) '.' fraction (fun c (hc : c ∈ [digit]) => ?_)
      (by decide)
    rw [List.mem_singleton.mp hc, decide_eq_true_eq]
    exact isAsciiDigit_ne (hdigits digit List.mem_cons_self) (by decide)
  obtain ⟨coefficient, scale, count, hsignificant, hscale⟩ :=
    significant_isSome (digit :: fraction) (exponent - fraction.length)
      (by rw [List.length_cons]; exact hlength)
  obtain ⟨magnitude, rfl, hvalue, _⟩ := significant_spec hdigits hsignificant
  refine ⟨magnitude, scale, count, ?_, ?_, ?_⟩
  · unfold parseDecimal mantissaDigits exponentValue
    simp only [hspan, hpoint, readSignedDecimal_showInteger hexponent, List.drop_one, List.tail_cons,
      List.singleton_append]
    rw [if_neg]
    · exact hsignificant
    · simp only [Bool.or_eq_true, not_or, Bool.not_eq_true, List.isEmpty_eq_false_iff,
        List.any_eq_false, Bool.not_eq_true', Bool.not_eq_false]
      exact ⟨List.cons_ne_nil _ _, hdigits⟩
  · rw [Int.cast_natCast, ← hvalue]
  · refine hscale.imp id fun ⟨hle, hge⟩ => ⟨hle, ?_⟩
    rw [List.length_cons] at hge
    omega

/-- The first decimal digit of a magnitude of the format is not far from the point. -/
theorem floorLog10_bounds (hformat : Supported format)
    (hvalue : 0 < value) (hgrid : format.Grid value) (hlt : value < format.ceiling) :
    -5500 ≤ floorLog10 value ∧ floorLog10 value ≤ 5500 := by
  obtain ⟨hle, hge⟩ := floorLog10_spec hvalue
  have hpowers : ∀ a b : Int, (2 : ℚ) ^ a < 2 ^ b → a < b :=
    fun a b h => (zpow_lt_zpow_iff_right₀ (by norm_num)).mp h
  have hleast : (2 : ℚ) ^ format.leastExponent ≤ value := by
    obtain ⟨significand, exponent, _, hexponent, rfl⟩ := hgrid
    have hsignificand : (1 : ℚ) ≤ significand := by
      have : significand ≠ 0 := by
        rintro rfl
        simp at hvalue
      exact_mod_cast Nat.one_le_iff_ne_zero.mpr this
    have hmono : (2 : ℚ) ^ format.leastExponent ≤ 2 ^ exponent :=
      zpow_le_zpow_right₀ (by norm_num) hexponent
    have := two_zpow_pos exponent
    nlinarith
  have hmaximum := hformat.maximum_le
  have hminimum := hformat.le_least
  constructor
  · by_contra hnot
    have hsmall := ten_zpow_le_two_zpow (show floorLog10 value + 1 ≤ 0 by omega)
    have := hpowers _ _ (lt_of_le_of_lt hleast (lt_of_lt_of_le hge hsmall))
    omega
  · by_contra hnot
    have hlarge := two_zpow_le_ten_zpow (show 0 ≤ floorLog10 value by omega)
    have := hpowers _ _ (lt_of_le_of_lt (le_trans hlarge hle) hlt)
    omega

/-- **Printed with enough digits, a magnitude of the format reads back.** -/
theorem readsBack_renderScientific (hformat : Supported format)
    (hvalue : 0 < value) (hgrid : format.Grid value) (hlt : value < format.ceiling) (negative : Bool) :
    readsBack format negative (.finite negative value)
      (renderScientific (maximumDigits format) value) = true := by
  have hfew := hformat.digits_le
  have hone := hformat.one_le_digits
  have hprecision := hformat.digits
  obtain ⟨count, hcount⟩ : ∃ count, maximumDigits format = count + 1 := ⟨maximumDigits format - 1, by omega⟩
  rw [hcount, Nat.add_sub_cancel] at hprecision
  rw [hcount]
  obtain ⟨digit, fraction, exponent, htext, hdigits, hlength, hexponent, hclose⟩ :=
    renderScientific_spec hvalue count
  have hbounds := floorLog10_bounds hformat hvalue hgrid hlt
  have hmaximum : maximumFoldedSignificantDigits = 512 := rfl
  have hsmall : exponent.natAbs < 10 ^ 19 := by
    have hle : exponent.natAbs ≤ 5501 := by omega
    exact lt_of_le_of_lt hle (by norm_num)
  obtain ⟨coefficient, scale, digits, hparse, hdecimal, hscale⟩ :=
    parseDecimal_scientific hdigits (by omega) hsmall
  have hrational : ∃ roundTrip, decimalRational coefficient scale = some roundTrip := by
    unfold decimalRational
    rw [if_neg (by simp only [Bool.or_eq_true, decide_eq_true_eq]; omega)]
    split
    · exact ⟨_, rfl⟩
    · exact ⟨_, rfl⟩
  obtain ⟨roundTrip, hrational⟩ := hrational
  obtain rfl := decimalRational_eq hrational
  -- the decimal is closer to the value than half the distance to any other magnitude
  have hnearest : format.Nearest ((coefficient : ℚ) * 10 ^ scale) value := by
    refine nearest_of_close hgrid ?_
    rw [hdecimal]
    obtain ⟨hle, _⟩ := floorLog10_spec hvalue
    have hpower : (0 : ℚ) < 10 ^ count := by positivity
    have hprecision' : (2 : ℚ) ^ format.precision < 10 ^ count := by exact_mod_cast hprecision
    have hunit := ten_zpow_pos (floorLog10 value - count)
    have hsplit : (10 : ℚ) ^ floorLog10 value = 10 ^ count * 10 ^ (floorLog10 value - count) := by
      rw [← zpow_natCast, ← zpow_add₀ (by norm_num)]
      congr 1
      ring
    calc 2 ^ format.precision * (2 * |_ - value|)
        ≤ 2 ^ format.precision * 10 ^ (floorLog10 value - count) := by
          apply mul_le_mul_of_nonneg_left _ (by positivity)
          linarith
      _ < 10 ^ count * 10 ^ (floorLog10 value - count) := mul_lt_mul_of_pos_right hprecision' hunit
      _ = 10 ^ floorLog10 value := hsplit.symm
      _ ≤ value := hle
  have hnonneg : (0 : ℚ) ≤ coefficient * 10 ^ scale := by
    rw [hdecimal]
    have := ten_zpow_pos (exponent - fraction.length)
    positivity
  have hrounds := rounds_of_nearest hnearest negative
  rw [if_neg (not_le.mpr hlt)] at hrounds
  unfold readsBack
  rw [htext, hparse]
  dsimp only
  rw [hrational]
  dsimp only
  rw [decide_eq_true_eq]
  exact (roundToFormat_rounds format negative hnonneg).unique hrounds

/-- The shortest spelling reads back, and starts with a digit. -/
theorem shortest_spec (hformat : Supported format) (hvalue : 0 < value)
    (hgrid : format.Grid value) (hlt : value < format.ceiling) (negative : Bool) :
    readsBack format negative (.finite negative value) (shortest format negative value) = true ∧
      ∃ digit rest, shortest format negative value = digit :: rest ∧ isAsciiDigit digit = true := by
  have hone := hformat.one_le_digits
  have hstart : ∀ count, 1 ≤ count → ∃ digit rest, renderScientific count value = digit :: rest ∧
      isAsciiDigit digit = true := by
    intro count hcount
    obtain ⟨n, rfl⟩ : ∃ n, count = n + 1 := ⟨count - 1, by omega⟩
    obtain ⟨digit, fraction, exponent, htext, hdigits, _⟩ := renderScientific_spec hvalue n
    refine ⟨digit, '.' :: fraction ++ 'e' :: showInteger exponent, ?_, hdigits digit List.mem_cons_self⟩
    rw [htext, List.cons_append]
  unfold shortest
  dsimp only
  cases hfind : ((List.range' 1 (maximumDigits format)).map
      (fun digits => renderScientific digits value)).find?
        (readsBack format negative (.finite negative value)) with
  | none =>
      rw [Option.getD_none]
      exact ⟨readsBack_renderScientific hformat hvalue hgrid hlt negative, hstart _ hone⟩
  | some spelling =>
      rw [Option.getD_some]
      refine ⟨List.find?_some hfind, ?_⟩
      obtain ⟨count, hcount, rfl⟩ := List.mem_map.mp (List.mem_of_find?_eq_some hfind)
      exact hstart count (List.mem_range'_1.mp hcount).1

theorem stripLeadingSign_signed (rest : List Char) (hplus : digit ≠ '+') (hminus : digit ≠ '-') (negative : Bool) :
    stripLeadingSign (signed negative (digit :: rest)) = (negative, digit :: rest) := by
  cases negative with
  | true => rfl
  | false =>
      unfold signed stripLeadingSign
      rw [if_neg Bool.false_ne_true]
      split
      · next heq => exact absurd (List.cons.inj heq).1 hplus
      · next heq => exact absurd (List.cons.inj heq).1 hminus
      · rfl

/-- **A datum of a format is printed so that it reads back.** -/
theorem parseFloatingValue_render (hformat : Supported format) (h : format.Holds datum) :
    parseFloatingValue format (renderFloatingValue format datum) = some datum := by
  cases datum with
  | notANumber => rfl
  | infinity negative => cases negative <;> rfl
  | finite negative value =>
      obtain ⟨hgrid, hlt⟩ := h
      unfold renderFloatingValue
      dsimp only
      split
      · next hzero =>
        rw [hzero]
        cases negative <;> rfl
      next hne =>
      have hvalue : 0 < value := lt_of_le_of_ne hgrid.nonneg (Ne.symm hne)
      obtain ⟨hreads, digit, rest, htext, hdigit⟩ := shortest_spec hformat hvalue hgrid hlt negative
      rw [htext] at hreads ⊢
      have hstrip := stripLeadingSign_signed rest (isAsciiDigit_ne hdigit (by decide))
        (isAsciiDigit_ne hdigit (by decide)) negative
      have hnan : digit :: rest ≠ "nan".toList := by
        intro heq
        exact isAsciiDigit_ne hdigit (by decide) (List.cons.inj heq).1
      have hinf : digit :: rest ≠ "inf".toList := by
        intro heq
        exact isAsciiDigit_ne hdigit (by decide) (List.cons.inj heq).1
      unfold readsBack at hreads
      split at hreads
      · cases hreads
      next coefficient scale count hparse =>
      split at hreads
      · cases hreads
      next roundTrip hrational =>
      -- whatever is read is the rounding of the decimal, and so is the datum
      have hsome : ∃ datum', parseFloatingValue format (signed negative (digit :: rest)) = some datum' := by
        unfold parseFloatingValue
        simp only [hstrip, if_neg hnan, if_neg hinf, hparse, hrational, Option.map_some]
        split
        · exact ⟨_, rfl⟩
        split
        · exact ⟨_, rfl⟩
        split
        · exact ⟨_, rfl⟩
        · exact ⟨_, rfl⟩
      obtain ⟨datum', hread⟩ := hsome
      obtain ⟨coefficient', scale', count', hparse', hrounds⟩ :=
        parseFloatingValue_rounds hformat hstrip hnan hinf hread
      rw [hparse] at hparse'
      cases hparse'
      obtain rfl := decimalRational_eq hrational
      obtain ⟨magnitude, rfl, _, _⟩ := parseDecimal_spec hparse
      have hnonneg : (0 : ℚ) ≤ (magnitude : Int) * 10 ^ scale := by
        have := ten_zpow_pos scale
        positivity
      have htarget := roundToFormat_rounds format negative hnonneg
      rw [of_decide_eq_true hreads] at htarget
      rw [hread, hrounds.unique htarget]

/-! ## Literals -/

/-- A number has one exponent text in front of it, if any. -/
theorem ExponentText.unique {text : List Char} {exponent' : Int} (h : ExponentText text exponent)
    (h' : ExponentText text exponent') : exponent = exponent' := by
  have hsign : ∀ (sign : Char) (digits : List Char), isAsciiDigit sign = false → ¬ Digits (sign :: digits) := by
    intro sign digits hnot hdigits
    have hdigit := hdigits.2 sign List.mem_cons_self
    rw [hnot] at hdigit
    cases hdigit
  cases h with
  | absent => cases h' with | absent => rfl
  | unsigned _ hdigits =>
      cases h' with
      | unsigned _ _ => rfl
      | positive _ _ => exact absurd hdigits (hsign _ _ (by decide))
      | negative _ _ => exact absurd hdigits (hsign _ _ (by decide))
  | positive _ _ =>
      cases h' with
      | unsigned _ hdigits => exact absurd hdigits (hsign _ _ (by decide))
      | positive _ _ => rfl
  | negative _ _ =>
      cases h' with
      | unsigned _ hdigits => exact absurd hdigits (hsign _ _ (by decide))
      | negative _ _ => rfl

theorem ExponentText.letter (h : ExponentText text exponent) :
    text = [] ∨ ∃ letter rest, text = letter :: rest ∧ letter ∈ ['e', 'E'] := by
  cases h with
  | absent => exact Or.inl rfl
  | unsigned hletter _ => exact Or.inr ⟨_, _, rfl, hletter⟩
  | positive hletter _ => exact Or.inr ⟨_, _, rfl, hletter⟩
  | negative hletter _ => exact Or.inr ⟨_, _, rfl, hletter⟩

/-- The text in front of the first element that fails a test, if there is one. -/
theorem span_before (p : Char → Bool) {after : List Char} (hbefore : ∀ c ∈ before, p c = true)
    (hafter : after = [] ∨ ∃ letter rest, after = letter :: rest ∧ p letter = false) :
    (before ++ after).span p = (before, after) := by
  rcases hafter with rfl | ⟨letter, rest, rfl, hletter⟩
  · rw [List.span_eq_takeWhile_dropWhile, List.takeWhile_append_of_pos hbefore,
      List.dropWhile_append_of_pos hbefore, List.takeWhile_nil, List.dropWhile_nil, List.append_nil]
  · exact span_append p letter rest hbefore hletter

/-- How a decimal is cut into its parts. -/
theorem decimal_parts {whole exponentText : List Char}
    (hdigits : Digits (whole ++ fraction)) (hexponent : ExponentText exponentText exponent)
    (hspelling : spelling = whole ++ exponentText ∧ fraction = [] ∨
      spelling = whole ++ '.' :: fraction ++ exponentText) :
    ∃ mantissa, spelling.span (fun character => !(['e', 'E'].contains character)) = (mantissa, exponentText) ∧
      mantissaDigits mantissa = (whole ++ fraction, fraction.length) := by
  have hnotLetter : ∀ c, isAsciiDigit c = true ∨ c = '.' → (!(['e', 'E'].contains c)) = true := by
    intro c hc
    rw [Bool.not_eq_true', List.contains_eq_mem, decide_eq_false_iff_not]
    intro hletter
    have hnot : isAsciiDigit c = false ∧ c ≠ '.' := by
      rcases List.mem_cons.mp hletter with rfl | hletter
      · decide
      · rw [List.mem_singleton.mp hletter]
        decide
    rcases hc with hdigit | hpoint
    · rw [hnot.1] at hdigit
      cases hdigit
    · exact hnot.2 hpoint
  have hafter : exponentText = [] ∨
      ∃ letter rest, exponentText = letter :: rest ∧ (!(['e', 'E'].contains letter)) = false := by
    refine hexponent.letter.imp id ?_
    rintro ⟨letter, rest, rfl, hletter⟩
    refine ⟨letter, rest, rfl, ?_⟩
    rw [Bool.not_eq_false', List.contains_iff_mem]
    exact hletter
  have hnotPoint : ∀ c ∈ whole, decide (c ≠ '.') = true := by
    intro c hc
    rw [decide_eq_true_eq]
    exact isAsciiDigit_ne (hdigits.2 c (List.mem_append_left _ hc)) (by decide)
  rcases hspelling with ⟨rfl, rfl⟩ | rfl
  · refine ⟨whole, span_before _ ?_ hafter, ?_⟩
    · intro c hc
      exact hnotLetter c (Or.inl (hdigits.2 c (List.mem_append_left _ hc)))
    · unfold mantissaDigits
      have hspan := span_before (fun c => decide (c ≠ '.')) hnotPoint (Or.inl (rfl : ([] : List Char) = []))
      rw [List.append_nil] at hspan
      rw [hspan, List.append_nil]
      simp
  · refine ⟨whole ++ '.' :: fraction, span_before _ ?_ hafter, ?_⟩
    · intro c hc
      rcases List.mem_append.mp hc with hwhole | hrest
      · exact hnotLetter c (Or.inl (hdigits.2 c (List.mem_append_left _ hwhole)))
      · rcases List.mem_cons.mp hrest with rfl | hfraction
        · exact hnotLetter '.' (Or.inr rfl)
        · exact hnotLetter c (Or.inl (hdigits.2 c (List.mem_append_right _ hfraction)))
    · unfold mantissaDigits
      rw [span_append (fun c => decide (c ≠ '.')) '.' fraction hnotPoint (by decide)]
      rfl

/-- A spelling denotes one decimal. -/
theorem DecimalText.unique {value' : ℚ} (h : DecimalText spelling value)
    (h' : DecimalText spelling value') : value = value' := by
  obtain ⟨whole, fraction, exponentText, exponent, hdigits, hexponent, hspelling, rfl⟩ := h
  obtain ⟨whole', fraction', exponentText', exponent', hdigits', hexponent', hspelling', rfl⟩ := h'
  obtain ⟨mantissa, hspan, hparts⟩ := decimal_parts hdigits hexponent hspelling
  obtain ⟨mantissa', hspan', hparts'⟩ := decimal_parts hdigits' hexponent' hspelling'
  rw [hspan] at hspan'
  obtain ⟨rfl, rfl⟩ := Prod.mk.inj hspan'
  rw [hparts] at hparts'
  obtain ⟨hsame, hlength⟩ := Prod.mk.inj hparts'
  rw [hsame, hlength, hexponent.unique hexponent']

/-- A decimal begins with a digit or its point. -/
theorem DecimalText.head (h : DecimalText spelling value) :
    ∃ first rest, spelling = first :: rest ∧ (isAsciiDigit first = true ∨ first = '.') := by
  obtain ⟨whole, fraction, exponentText, exponent, hdigits, _, hspelling, _⟩ := h
  cases whole with
  | cons digit others =>
      have hdigit := hdigits.2 digit List.mem_cons_self
      rcases hspelling with ⟨rfl, _⟩ | rfl
      · exact ⟨digit, _, rfl, Or.inl hdigit⟩
      · exact ⟨digit, _, rfl, Or.inl hdigit⟩
  | nil =>
      rcases hspelling with ⟨_, rfl⟩ | rfl
      · exact absurd rfl hdigits.1
      · exact ⟨'.', _, rfl, Or.inr rfl⟩

/-- **Literals survive printing**: a datum of a floating type is printed so that it reads back, and a decimal
that is read is read as its rounding, shortcuts included. -/
theorem floatingLiterals_survive {valueType : Ty} {format : BinaryFormat}
    (h : formatFor valueType = some format) :
    (∀ datum, format.Holds datum →
      parseFloatingValue format (renderFloatingValue format datum) = some datum) ∧
    ∀ spelling negative unsigned value datum, SignedText spelling negative unsigned →
      DecimalText unsigned value → parseFloatingValue format spelling = some datum →
        format.Rounds negative value datum := by
  have hformat := supported_of_formatFor h
  refine ⟨fun datum hdatum => parseFloatingValue_render hformat hdatum, ?_⟩
  intro spelling negative unsigned value datum hsigned htext hread
  obtain ⟨first, rest, rfl, hfirst⟩ := htext.head
  have hne : ∀ letter, isAsciiDigit letter = false → letter ≠ '.' → first ≠ letter := by
    intro letter hdigit hpoint
    rcases hfirst with hfirst | rfl
    · exact isAsciiDigit_ne hfirst hdigit
    · exact Ne.symm hpoint
  have hstrip : stripLeadingSign spelling = (negative, first :: rest) := by
    cases hsigned with
    | unsigned =>
        exact stripLeadingSign_signed rest (hne '+' (by decide) (by decide))
          (hne '-' (by decide) (by decide)) false
    | positive => rfl
    | negative => rfl
  have hnan : first :: rest ≠ "nan".toList := by
    intro heq
    exact hne 'n' (by decide) (by decide) (List.cons.inj heq).1
  have hinf : first :: rest ≠ "inf".toList := by
    intro heq
    exact hne 'i' (by decide) (by decide) (List.cons.inj heq).1
  obtain ⟨coefficient, scale, count, hparse, hrounds⟩ :=
    parseFloatingValue_rounds hformat hstrip hnan hinf hread
  obtain ⟨magnitude, rfl, hdenotes, _⟩ := parseDecimal_spec hparse
  rw [Int.cast_natCast] at hrounds
  rwa [htext.unique hdenotes]

/-- One tenth as a `float`, and a decimal that is far below the least magnitude. -/
theorem floatingLiterals_survive_float :
    (∀ datum, Format.Holds ⟨53, -1022, 1023, by decide, by decide⟩ datum →
      parseFloatingValue ⟨53, -1022, 1023, by decide, by decide⟩
        (renderFloatingValue ⟨53, -1022, 1023, by decide, by decide⟩ datum) = some datum) ∧
    Format.Rounds ⟨53, -1022, 1023, by decide, by decide⟩ true (1 * 10 ^ (-400 : Int)) (.finite true 0) := by
  have hfloat := @floatingLiterals_survive (namedType "float") _ rfl
  refine ⟨hfloat.1, ?_⟩
  apply hfloat.2 ['-', '1', 'e', '-', '4', '0', '0'] true ['1', 'e', '-', '4', '0', '0']
  · exact SignedText.negative _
  · have hone : Digits (['1'] ++ []) := ⟨List.cons_ne_nil _ _, List.all_eq_true.mp rfl⟩
    have hexponent : Digits ['4', '0', '0'] := ⟨List.cons_ne_nil _ _, List.all_eq_true.mp rfl⟩
    refine ⟨['1'], [], ['e', '-', '4', '0', '0'], -400, hone, .negative List.mem_cons_self hexponent,
      Or.inl ⟨rfl, rfl⟩, ?_⟩
    rw [show digitsValue (['1'] ++ []) = 1 from rfl]
    norm_num
  · decide +kernel

end Tala.Core.Optimizer.Floating
