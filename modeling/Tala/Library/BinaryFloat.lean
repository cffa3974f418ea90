import Mathlib.Algebra.Order.Field.Power
import Mathlib.Algebra.Order.Ring.Int
import Mathlib.Data.Rat.Floor
import Mathlib.Order.WithBot
import Mathlib.Tactic.Linarith
import Mathlib.Tactic.Positivity
import Mathlib.Tactic.Ring
import Mathlib.Tactic.FieldSimp

/-!
# `Library.BinaryFloat` — binary floating-point formats and rounding to nearest, ties to even

A format is a precision and a range of exponents. The magnitudes it can hold, with exponents unbounded
above, form its `Grid`; `Nearest` says which point of the grid an exact magnitude rounds to, and `Rounds`
adds the overflow threshold. Both are stated without an algorithm and determine the result
(`Format.Nearest.unique`, `Format.Rounds.unique`).

`nearest_of_integer` reduces rounding to integers of the right quantum, and `nearest_of_close` says that
everything close to a point of the grid rounds to it, which is what printing enough decimals rests on.
The operations on data (`IsSum`, `IsProduct`, …) put the standard's rules for not-a-number, infinities and
signs of zero around it.
-/

namespace Tala.Library.BinaryFloat

/-- A binary format: digits of the significand, and the exponents of the least and the greatest normal
magnitude. -/
structure Format where
  precision : Nat
  minimumExponent : Int
  maximumExponent : Int
  precise : 2 ≤ precision
  ordered : minimumExponent ≤ maximumExponent
deriving DecidableEq

namespace Format

variable (format : Format)

/-- The exponent of the least positive magnitude. -/
def leastExponent : Int := format.minimumExponent - (format.precision - 1)

/-- The magnitudes of the format, with exponents unbounded above. -/
def Grid (value : ℚ) : Prop :=
  ∃ (significand : Nat) (exponent : Int), significand < 2 ^ format.precision ∧
    format.leastExponent ≤ exponent ∧ value = significand * 2 ^ exponent

/-- A magnitude whose significand ends in zero. -/
def EvenGrid (value : ℚ) : Prop :=
  ∃ (significand : Nat) (exponent : Int), Even significand ∧ significand < 2 ^ format.precision ∧
    format.leastExponent ≤ exponent ∧ value = significand * 2 ^ exponent

/-- The nearest magnitude of the format, and of two equally near ones the even one. -/
structure Nearest (exact value : ℚ) : Prop where
  grid : format.Grid value
  closest : ∀ other, format.Grid other → |exact - value| ≤ |exact - other|
  even : ∀ other, format.Grid other → other ≠ value → |exact - other| = |exact - value| →
    format.EvenGrid value

/-- Two to the exponent after the greatest. -/
def ceiling : ℚ := 2 ^ (format.maximumExponent + 1)

/-- The least magnitude that overflows: half a unit above the greatest finite one. -/
def overflow : ℚ := format.ceiling - 2 ^ (format.maximumExponent - format.precision)

end Format

/-- A floating-point datum: a finite one is a sign and a magnitude. -/
inductive Datum
  | notANumber
  | infinity (negative : Bool)
  | finite (negative : Bool) (magnitude : ℚ)
deriving DecidableEq

/-- What an exact magnitude with a sign rounds to. -/
def Format.Rounds (format : Format) (negative : Bool) (exact : ℚ) : Datum → Prop
  | .notANumber => False
  | .infinity sign => sign = negative ∧ format.overflow ≤ exact
  | .finite sign magnitude => sign = negative ∧ exact < format.overflow ∧ format.Nearest exact magnitude

/-- A datum of the format. -/
def Format.Holds (format : Format) : Datum → Prop
  | .notANumber => True
  | .infinity _ => True
  | .finite _ magnitude => format.Grid magnitude ∧ magnitude < format.ceiling

/-- The integer nearest to a number, and of two equally near ones the even one. -/
def NearestInteger (exact : ℚ) (value : Int) : Prop :=
  |exact - value| ≤ 1 / 2 ∧ (|exact - value| = 1 / 2 → Even value)

/-! ## Points of the grid -/

section Grid

variable {format : Format} {value other exact : ℚ}

theorem two_zpow_pos (exponent : Int) : (0 : ℚ) < 2 ^ exponent := zpow_pos (by norm_num) exponent

theorem two_zpow_split {a b : Int} (h : a ≤ b) : (2 : ℚ) ^ b = ((2 ^ (b - a).toNat : Nat) : ℚ) * 2 ^ a := by
  have hnat : (2 : ℚ) ^ (b - a).toNat = 2 ^ (b - a) := by
    rw [← zpow_natCast, Int.toNat_of_nonneg (by omega)]
  push_cast
  rw [hnat, ← zpow_add₀ (by norm_num)]
  congr 1
  omega

theorem Format.Grid.nonneg (h : format.Grid value) : 0 ≤ value := by
  obtain ⟨significand, exponent, _, _, rfl⟩ := h
  have := two_zpow_pos exponent
  positivity

theorem Format.EvenGrid.grid (h : format.EvenGrid value) : format.Grid value := by
  obtain ⟨significand, exponent, _, hlt, hle, heq⟩ := h
  exact ⟨significand, exponent, hlt, hle, heq⟩

theorem evenGrid_zero (format : Format) : format.EvenGrid 0 :=
  ⟨0, format.leastExponent, Even.zero, by positivity, le_refl _, by simp⟩

theorem evenGrid_two_zpow {exponent : Int}
    (h : format.leastExponent + (format.precision - 1) ≤ exponent) : format.EvenGrid (2 ^ exponent) := by
  have hprecise := format.precise
  have hsplit : exponent = ((format.precision - 1 : Nat) : Int)
      + (exponent - ((format.precision - 1 : Nat) : Int)) := by omega
  refine ⟨2 ^ (format.precision - 1), exponent - ((format.precision - 1 : Nat) : Int), ?_, ?_, ?_, ?_⟩
  · exact (Nat.even_pow.mpr ⟨even_two, by omega⟩)
  · exact Nat.pow_lt_pow_right (by norm_num) (by omega)
  · omega
  · conv_lhs => rw [hsplit]
    rw [zpow_add₀ (by norm_num), zpow_natCast]
    push_cast
    ring

/-- Multiples of a quantum, up to two to the precision of it, are on the grid. -/
theorem grid_of_le {significand : Nat} {exponent : Int} (hle : significand ≤ 2 ^ format.precision)
    (hexponent : format.leastExponent ≤ exponent) : format.Grid (significand * 2 ^ exponent) := by
  rcases Nat.lt_or_eq_of_le hle with hlt | heq
  · exact ⟨significand, exponent, hlt, hexponent, rfl⟩
  · have hpower : ((significand : Nat) : ℚ) * 2 ^ exponent = 2 ^ (exponent + format.precision) := by
      rw [heq, zpow_add₀ (by norm_num), zpow_natCast]
      push_cast
      ring
    rw [hpower]
    exact (evenGrid_two_zpow (by omega)).grid

/-- Different points of the grid lie at least one unit of the larger one's precision apart. -/
theorem Format.Grid.separated (h : format.Grid value) (hother : format.Grid other) (hne : value ≠ other) :
    value ≤ 2 ^ format.precision * |value - other| := by
  obtain ⟨m, r, hm, hr, rfl⟩ := h
  obtain ⟨k, s, hk, hs, rfl⟩ := hother
  have hpower : (0 : ℚ) < 2 ^ format.precision := by positivity
  rcases le_total r s with hrs | hsr
  · -- both are multiples of the quantum of the first
    rw [two_zpow_split hrs, ← mul_assoc, ← Nat.cast_mul] at hne ⊢
    have hr0 := two_zpow_pos r
    have hdiff : (1 : ℚ) ≤ |(m : ℚ) - (k * 2 ^ (s - r).toNat : Nat)| := by
      have hint : (m : Int) - ((k * 2 ^ (s - r).toNat : Nat) : Int) ≠ 0 := by
        intro hzero
        apply hne
        have : m = k * 2 ^ (s - r).toNat := by omega
        rw [← this]
      exact_mod_cast Int.one_le_abs hint
    rw [← sub_mul, abs_mul, abs_of_pos hr0, ← mul_assoc]
    apply mul_le_mul_of_nonneg_right _ hr0.le
    have hm' : (m : ℚ) ≤ 2 ^ format.precision := by exact_mod_cast hm.le
    nlinarith
  · rw [two_zpow_split hsr, ← mul_assoc, ← Nat.cast_mul] at hne ⊢
    have hs0 := two_zpow_pos s
    generalize hn : m * 2 ^ (r - s).toNat = n at hne ⊢
    rw [← sub_mul, abs_mul, abs_of_pos hs0, ← mul_assoc]
    apply mul_le_mul_of_nonneg_right _ hs0.le
    have hne' : n ≠ k := by
      rintro rfl
      exact hne rfl
    rcases Nat.lt_or_gt_of_ne hne' with hlt | hgt
    · have hn1 : (n : ℚ) + 1 ≤ k := by exact_mod_cast hlt
      have hk1 : (k : ℚ) + 1 ≤ 2 ^ format.precision := by exact_mod_cast hk
      rw [abs_of_neg (by linarith)]
      nlinarith
    · have hn1 : (k : ℚ) + 1 ≤ n := by exact_mod_cast hgt
      have hk1 : (k : ℚ) + 1 ≤ 2 ^ format.precision := by exact_mod_cast hk
      have hone : (1 : ℚ) ≤ 2 ^ format.precision := one_le_pow₀ (by norm_num)
      rw [abs_of_pos (by linarith)]
      nlinarith

/-! ## Rounding -/

/-- **The nearest magnitude is one.** -/
theorem Format.Nearest.unique (h : format.Nearest exact value) (h' : format.Nearest exact other) :
    value = other := by
  -- two even points equally near: each is an even multiple of the smaller of the two quanta,
  -- but their distance is at most one quantum of either
  have key : ∀ {v w : ℚ}, format.Nearest exact v → format.Nearest exact w → ¬ v < w := by
    intro v w hv hw hlt
    have hsame : |exact - w| = |exact - v| :=
      le_antisymm (hw.closest v hv.grid) (hv.closest w hw.grid)
    obtain ⟨m, r, hmeven, hm, hr, rfl⟩ := hv.even w hw.grid hlt.ne' hsame
    obtain ⟨k, s, hkeven, hk, hs, rfl⟩ := hw.even _ hv.grid hlt.ne hsame.symm
    have hmiddle : exact - m * 2 ^ r = k * 2 ^ s - exact := by
      rcases abs_eq_abs.mp hsame with heq | heq <;> linarith
    have hr0 := two_zpow_pos r
    have hs0 := two_zpow_pos s
    have hdistance : |exact - m * 2 ^ r| = exact - m * 2 ^ r := abs_of_nonneg (by linarith)
    have hdistance' : |exact - k * 2 ^ s| = k * 2 ^ s - exact := by
      rw [abs_of_nonpos (by linarith)]
      ring
    have hnext : (k : ℚ) * 2 ^ s ≤ (m + 1 : Nat) * 2 ^ r := by
      by_contra hnot
      have hgrid : format.Grid ((m + 1 : Nat) * 2 ^ r) := grid_of_le (by omega) hr
      have hcloser := hv.closest _ hgrid
      rw [hdistance] at hcloser
      push_cast at hcloser hnot
      rcases abs_cases (exact - ((m : ℚ) + 1) * 2 ^ r) with ⟨habs, _⟩ | ⟨habs, _⟩ <;>
        rw [habs] at hcloser <;> linarith
    have hk0 : 0 < k := by
      rcases Nat.eq_zero_or_pos k with rfl | hpos
      · simp only [Nat.cast_zero, zero_mul] at hlt
        exact absurd hlt (not_lt.mpr hv.grid.nonneg)
      · exact hpos
    have hprevious : ((k - 1 : Nat) : ℚ) * 2 ^ s ≤ m * 2 ^ r := by
      by_contra hnot
      have hgrid : format.Grid ((k - 1 : Nat) * 2 ^ s) := grid_of_le (by omega) hs
      have hcloser := hw.closest _ hgrid
      rw [hdistance'] at hcloser
      push_cast [Nat.cast_sub (show 1 ≤ k from hk0)] at hcloser hnot
      rcases abs_cases (exact - ((k : ℚ) - 1) * 2 ^ s) with ⟨habs, _⟩ | ⟨habs, _⟩ <;>
        rw [habs] at hcloser <;> linarith
    push_cast [Nat.cast_sub (show 1 ≤ k from hk0)] at hnext hprevious
    obtain ⟨m, rfl⟩ := hmeven
    obtain ⟨k, rfl⟩ := hkeven
    rcases le_total r s with hrs | hsr
    · rw [two_zpow_split hrs, ← mul_assoc, ← Nat.cast_mul] at hlt hnext
      have hlt' := lt_of_mul_lt_mul_right hlt hr0.le
      have hnext' := le_of_mul_le_mul_right hnext hr0
      norm_cast at hlt' hnext'
      rw [Nat.add_mul] at hlt' hnext'
      omega
    · rw [two_zpow_split hsr, ← mul_assoc, ← Nat.cast_mul] at hlt hprevious
      have hlt' := lt_of_mul_lt_mul_right hlt hs0.le
      have hprevious' := le_of_mul_le_mul_right hprevious hs0
      have hprevious'' : k + k ≤ (m + m) * 2 ^ (r - s).toNat + 1 := by
        have : ((k + k : Nat) : ℚ) ≤ ((m + m) * 2 ^ (r - s).toNat : Nat) + 1 := by linarith
        exact_mod_cast this
      norm_cast at hlt'
      rw [Nat.add_mul] at hlt' hprevious''
      omega
  exact le_antisymm (not_lt.mp (key h' h)) (not_lt.mp (key h h'))

/-- A sign and an exact magnitude round to one datum. -/
theorem Format.Rounds.unique {negative : Bool} {datum datum' : Datum}
    (h : format.Rounds negative exact datum) (h' : format.Rounds negative exact datum') :
    datum = datum' := by
  cases datum with
  | notANumber => exact h.elim
  | infinity sign =>
      cases datum' with
      | notANumber => exact h'.elim
      | infinity sign' => rw [h.1, h'.1]
      | finite sign' magnitude => exact absurd h'.2.1 (not_lt.mpr h.2)
  | finite sign magnitude =>
      cases datum' with
      | notANumber => exact h'.elim
      | infinity sign' => exact absurd h.2.1 (not_lt.mpr h'.2)
      | finite sign' magnitude' => rw [h.1, h'.1, h.2.2.unique h'.2.2]

theorem nearest_self (h : format.Grid value) : format.Nearest value value where
  grid := h
  closest := fun other _ => by
    rw [sub_self, abs_zero]
    exact abs_nonneg _
  even := fun other _ hne heq => by
    rw [sub_self, abs_zero, abs_eq_zero, sub_eq_zero] at heq
    exact absurd heq.symm hne

/-- Close enough to a point of the grid, that point is the nearest one. -/
theorem nearest_of_close (h : format.Grid value)
    (hclose : 2 ^ format.precision * (2 * |exact - value|) < value) : format.Nearest exact value := by
  have hstrict : ∀ other, format.Grid other → other ≠ value → |exact - value| < |exact - other| := by
    intro other hother hne
    have hseparated := h.separated hother hne.symm
    have hpower : (0 : ℚ) < 2 ^ format.precision := by positivity
    have hhalf : 2 * |exact - value| < |value - other| := by
      have := lt_of_lt_of_le hclose hseparated
      exact lt_of_mul_lt_mul_left this hpower.le
    have htriangle := abs_sub_le value exact other
    rw [abs_sub_comm value exact] at htriangle
    linarith
  refine ⟨h, fun other hother => ?_, fun other hother hne heq => ?_⟩
  · rcases eq_or_ne other value with rfl | hne
    · exact le_refl _
    · exact (hstrict other hother hne).le
  · exact absurd heq (hstrict other hother hne).ne'

/-- **Rounding is rounding to integers of the right quantum**: the least one, or one that gives the
significand its full precision. -/
theorem nearest_of_integer {exponent : Int} {rounded : Nat} (hexact : 0 ≤ exact)
    (hexponent : format.leastExponent ≤ exponent)
    (hfull : exponent = format.leastExponent ∨ 2 ^ (exponent + (format.precision - 1)) ≤ exact)
    (hsmall : exact < 2 ^ (exponent + format.precision))
    (hrounded : NearestInteger (exact / 2 ^ exponent) rounded) :
    format.Nearest exact (rounded * 2 ^ exponent) := by
  have hprecise := format.precise
  have hquantum := two_zpow_pos exponent
  obtain ⟨scaled, hscaled⟩ : ∃ scaled, scaled = exact / 2 ^ exponent := ⟨_, rfl⟩
  obtain rfl : exact = scaled * 2 ^ exponent := by
    rw [hscaled, div_mul_cancel₀ _ hquantum.ne']
  rw [← hscaled] at hrounded
  obtain ⟨hhalf, htie⟩ := hrounded
  have hscaled0 : 0 ≤ scaled := nonneg_of_mul_nonneg_left hexact hquantum
  have hscaledlt : scaled < 2 ^ format.precision := by
    rw [zpow_add₀ (by norm_num), zpow_natCast, mul_comm] at hsmall
    exact lt_of_mul_lt_mul_right (by linarith) hquantum.le
  have hbounds := abs_le.mp hhalf
  push_cast at hbounds hhalf
  have hle : rounded ≤ 2 ^ format.precision := by
    have : (rounded : ℚ) < (2 ^ format.precision : Nat) + 1 := by
      push_cast
      linarith [hbounds.1]
    exact Nat.lt_succ_iff.mp (by exact_mod_cast this)
  have hdistance : ∀ n : ℚ, |scaled * 2 ^ exponent - n * 2 ^ exponent| = |scaled - n| * 2 ^ exponent := by
    intro n
    rw [← sub_mul, abs_mul, abs_of_pos hquantum]
  -- the significand is full, or every point of the grid is a multiple of the quantum
  have hfull' : exponent = format.leastExponent ∨
      ((2 ^ (format.precision - 1) : Nat) : ℚ) ≤ scaled := by
    rcases hfull with heq | hle
    · exact Or.inl heq
    · right
      have hsplit : exponent + (format.precision - 1) = ((format.precision - 1 : Nat) : Int) + exponent := by
        omega
      rw [hsplit, zpow_add₀ (by norm_num), zpow_natCast] at hle
      push_cast
      exact le_of_mul_le_mul_right hle hquantum
  have hdouble : (2 : Nat) ^ format.precision = 2 * 2 ^ (format.precision - 1) := by
    conv_lhs => rw [show format.precision = format.precision - 1 + 1 by omega]
    rw [pow_succ]
    ring
  -- another integer is at least half away, and a whole one from the rounded one
  have hinteger : ∀ k : Nat, k ≠ rounded → |scaled - rounded| ≤ |scaled - k| ∧
      (|scaled - k| = |scaled - rounded| → |scaled - rounded| = 1 / 2) := by
    intro k hk
    have hone : (1 : ℚ) ≤ |(k : ℚ) - rounded| := by
      have hint : (k : Int) - (rounded : Int) ≠ 0 := by omega
      exact_mod_cast Int.one_le_abs hint
    have htriangle := abs_sub_le (k : ℚ) scaled rounded
    rw [abs_sub_comm (k : ℚ) scaled] at htriangle
    constructor
    · linarith
    · intro heq
      linarith
  -- a point of the grid below the quantum lies below every rounding
  have hbelow : ∀ (m : Nat) (r : Int), m < 2 ^ format.precision → format.leastExponent ≤ r →
      r < exponent → |scaled * 2 ^ exponent - rounded * 2 ^ exponent|
        < |scaled * 2 ^ exponent - m * 2 ^ r| := by
    intro m r hm hr hlt
    have hscaledfull : ((2 ^ (format.precision - 1) : Nat) : ℚ) ≤ scaled := by
      rcases hfull' with rfl | hfull'
      · omega
      · exact hfull'
    have hother : (m : ℚ) * 2 ^ r < (2 ^ (format.precision - 1) : Nat) * 2 ^ exponent := by
      have hstep : (2 : ℚ) ^ (r + 1) ≤ 2 ^ exponent := zpow_le_zpow_right₀ (by norm_num) (by omega)
      rw [zpow_add_one₀ (by norm_num)] at hstep
      have hm' : (m : ℚ) < 2 * (2 ^ (format.precision - 1) : Nat) := by
        rw [hdouble] at hm
        exact_mod_cast hm
      have hr0 := two_zpow_pos r
      have hpositive : (0 : ℚ) < (2 ^ (format.precision - 1) : Nat) := by positivity
      nlinarith
    have hrest : |scaled - rounded| ≤ |scaled - (2 ^ (format.precision - 1) : Nat)| := by
      by_cases heq : 2 ^ (format.precision - 1) = rounded
      · rw [heq]
      · exact (hinteger _ heq).1
    have hpower := mul_le_mul_of_nonneg_right hscaledfull hquantum.le
    rw [hdistance]
    calc |scaled - rounded| * 2 ^ exponent
        ≤ |scaled - (2 ^ (format.precision - 1) : Nat)| * 2 ^ exponent :=
          mul_le_mul_of_nonneg_right hrest hquantum.le
      _ = scaled * 2 ^ exponent - (2 ^ (format.precision - 1) : Nat) * 2 ^ exponent := by
          rw [abs_of_nonneg (by linarith), sub_mul]
      _ < |scaled * 2 ^ exponent - m * 2 ^ r| := by
          rw [abs_of_pos (by linarith)]
          linarith
  refine ⟨grid_of_le hle hexponent, ?_, ?_⟩
  · rintro other ⟨m, r, hm, hr, rfl⟩
    rcases lt_or_ge r exponent with hlt | hge
    · exact (hbelow m r hm hr hlt).le
    · rw [two_zpow_split hge, ← mul_assoc, ← Nat.cast_mul, hdistance, hdistance]
      apply mul_le_mul_of_nonneg_right _ hquantum.le
      by_cases heq : m * 2 ^ (r - exponent).toNat = rounded
      · rw [heq]
      · exact (hinteger _ heq).1
  · rintro other ⟨m, r, hm, hr, rfl⟩ hne hequal
    rcases lt_or_ge r exponent with hlt | hge
    · exact absurd hequal (hbelow m r hm hr hlt).ne'
    · rw [two_zpow_split hge, ← mul_assoc, ← Nat.cast_mul] at hne hequal
      rw [hdistance, hdistance] at hequal
      have hother : m * 2 ^ (r - exponent).toNat ≠ rounded := by
        intro heq
        exact hne (by rw [heq])
      have hhalf' := (hinteger _ hother).2 (mul_right_cancel₀ hquantum.ne' hequal)
      have heven : Even rounded := by exact_mod_cast htie (by exact_mod_cast hhalf')
      rcases Nat.lt_or_eq_of_le hle with hlt | heq
      · exact ⟨rounded, exponent, heven, hlt, hexponent, rfl⟩
      · have hpower : (rounded : ℚ) * 2 ^ exponent = 2 ^ (exponent + format.precision) := by
          rw [heq, zpow_add₀ (by norm_num), zpow_natCast]
          push_cast
          ring
        rw [hpower]
        exact evenGrid_two_zpow (by omega)

/-! ## Overflow -/

theorem evenGrid_ceiling (format : Format) : format.EvenGrid format.ceiling := by
  have hordered := format.ordered
  refine evenGrid_two_zpow ?_
  unfold Format.leastExponent
  omega

theorem ceiling_eq (format : Format) : format.ceiling
    = 2 ^ format.precision * (2 * 2 ^ (format.maximumExponent - format.precision)) := by
  unfold Format.ceiling
  rw [← zpow_natCast, ← zpow_one_add₀ (by norm_num), ← zpow_add₀ (by norm_num)]
  congr 1
  omega

/-- Below the ceiling the grid ends a whole unit earlier. -/
theorem le_greatest (h : format.Grid value) (hlt : value < format.ceiling) :
    value ≤ format.ceiling - 2 * 2 ^ (format.maximumExponent - format.precision) := by
  have hseparated := (evenGrid_ceiling format).grid.separated h hlt.ne'
  rw [abs_of_pos (by linarith)] at hseparated
  have hpower : (0 : ℚ) < 2 ^ format.precision := by positivity
  have hunit : 2 * 2 ^ (format.maximumExponent - format.precision) ≤ format.ceiling - value := by
    refine le_of_mul_le_mul_left ?_ hpower
    rw [← ceiling_eq]
    exact hseparated
  linarith

/-- The greatest finite magnitude. -/
theorem grid_greatest (format : Format) :
    format.Grid (format.ceiling - 2 * 2 ^ (format.maximumExponent - format.precision)) := by
  have hprecise := format.precise
  have hordered := format.ordered
  refine ⟨2 ^ format.precision - 1, format.maximumExponent - format.precision + 1,
    Nat.sub_lt (by positivity) (by norm_num), ?_, ?_⟩
  · unfold Format.leastExponent
    omega
  · rw [ceiling_eq, zpow_add_one₀ (by norm_num), Nat.cast_sub Nat.one_le_two_pow]
    push_cast
    ring

/-- **Overflow happens from the threshold on.** -/
theorem ceiling_le_iff (h : format.Nearest exact value) : format.ceiling ≤ value ↔ format.overflow ≤ exact := by
  have hprecise := format.precise
  have hordered := format.ordered
  have hunit := two_zpow_pos (format.maximumExponent - format.precision)
  constructor
  · intro hle
    by_contra hnot
    have hcloser := h.closest _ (grid_greatest format)
    unfold Format.overflow at hnot
    rw [abs_of_neg (by linarith)] at hcloser
    rcases abs_cases (exact - (format.ceiling - 2 * 2 ^ (format.maximumExponent - format.precision)))
      with ⟨habs, _⟩ | ⟨habs, _⟩ <;> rw [habs] at hcloser <;> linarith
  · intro hle
    by_contra hnot
    have hgreatest := le_greatest h.grid (not_le.mp hnot)
    unfold Format.overflow at hle
    have hcloser := h.closest _ (evenGrid_ceiling format).grid
    rw [abs_of_pos (by linarith)] at hcloser
    rcases abs_cases (exact - format.ceiling) with ⟨habs, _⟩ | ⟨habs, _⟩
    · rw [habs] at hcloser
      linarith
    · rw [habs] at hcloser
      -- exactly in the middle, the ceiling is the even one
      have hmiddle : exact = format.ceiling - 2 ^ (format.maximumExponent - format.precision) := by
        linarith
      have hvalue : value = format.ceiling - 2 * 2 ^ (format.maximumExponent - format.precision) := by
        linarith
      have hceiling : format.Nearest exact format.ceiling := by
        refine ⟨(evenGrid_ceiling format).grid, fun other hother => ?_, fun _ _ _ _ =>
          evenGrid_ceiling format⟩
        refine le_trans (le_of_eq ?_) (h.closest other hother)
        rw [hmiddle, hvalue, abs_of_neg (by linarith), abs_of_pos (by linarith)]
        ring
      exact hnot (h.unique hceiling).ge

/-- Rounding to a finite datum or to infinity, from the nearest magnitude. -/
theorem rounds_of_nearest (h : format.Nearest exact value) (negative : Bool) :
    format.Rounds negative exact
      (if format.ceiling ≤ value then .infinity negative else .finite negative value) := by
  split
  · next hle => exact ⟨rfl, (ceiling_le_iff h).mp hle⟩
  · next hnot => exact ⟨rfl, not_le.mp (fun hle => hnot ((ceiling_le_iff h).mpr hle)), h⟩

/-- What rounding gives is a datum of the format. -/
theorem Format.Rounds.holds {negative : Bool} {datum : Datum} (h : format.Rounds negative exact datum) :
    format.Holds datum := by
  cases datum with
  | notANumber => exact trivial
  | infinity sign => exact trivial
  | finite sign magnitude =>
      obtain ⟨_, hlt, hnearest⟩ := h
      refine ⟨hnearest.grid, not_le.mp fun hle => ?_⟩
      exact absurd ((ceiling_le_iff hnearest).mp hle) (not_le.mpr hlt)

end Grid

/-! ## Operations -/

/-- The number a sign and a magnitude stand for. -/
def signed (negative : Bool) (magnitude : ℚ) : ℚ := if negative then -magnitude else magnitude

def Datum.negate : Datum → Datum
  | .notANumber => .notANumber
  | .infinity negative => .infinity (!negative)
  | .finite negative magnitude => .finite (!negative) magnitude

/-- The place of a datum in the order of numbers with both infinities. -/
def Datum.place : Datum → Option (WithBot (WithTop ℚ))
  | .notANumber => none
  | .infinity true => some ⊥
  | .infinity false => some ((⊤ : WithTop ℚ) : WithBot (WithTop ℚ))
  | .finite negative magnitude => some ((signed negative magnitude : WithTop ℚ) : WithBot (WithTop ℚ))

/-- The two data are ordered and in this relation. -/
def Datum.Compares (relation : WithBot (WithTop ℚ) → WithBot (WithTop ℚ) → Prop) (left right : Datum) :
    Prop :=
  ∃ x y, left.place = some x ∧ right.place = some y ∧ relation x y

namespace Format

variable (format : Format)

def IsSum : Datum → Datum → Datum → Prop
  | .notANumber, _, result => result = .notANumber
  | _, .notANumber, result => result = .notANumber
  | .infinity s, .infinity t, result => result = if s = t then .infinity s else .notANumber
  | .infinity s, .finite _ _, result => result = .infinity s
  | .finite _ _, .infinity t, result => result = .infinity t
  | .finite s x, .finite t y, result =>
      -- a zero sum is negative when both operands are
      format.Rounds
        (if signed s x + signed t y = 0 then s && t else decide (signed s x + signed t y < 0))
        |signed s x + signed t y| result

def IsDifference (left right result : Datum) : Prop := format.IsSum left right.negate result

def IsProduct : Datum → Datum → Datum → Prop
  | .notANumber, _, result => result = .notANumber
  | _, .notANumber, result => result = .notANumber
  | .infinity s, .infinity t, result => result = .infinity (s != t)
  | .infinity s, .finite t y, result =>
      result = if y = 0 then .notANumber else .infinity (s != t)
  | .finite s x, .infinity t, result =>
      result = if x = 0 then .notANumber else .infinity (s != t)
  | .finite s x, .finite t y, result => format.Rounds (s != t) (x * y) result

def IsQuotient : Datum → Datum → Datum → Prop
  | .notANumber, _, result => result = .notANumber
  | _, .notANumber, result => result = .notANumber
  | .infinity _, .infinity _, result => result = .notANumber
  | .infinity s, .finite t _, result => result = .infinity (s != t)
  | .finite s _, .infinity t, result => result = .finite (s != t) 0
  | .finite s x, .finite t y, result =>
      if y = 0 then result = if x = 0 then .notANumber else .infinity (s != t)
      else format.Rounds (s != t) (x / y) result

/-- The remainder of a division that drops the fraction; it has the sign of the dividend. -/
def IsRemainder : Datum → Datum → Datum → Prop
  | .notANumber, _, result => result = .notANumber
  | _, .notANumber, result => result = .notANumber
  | .infinity _, _, result => result = .notANumber
  | .finite s x, .infinity _, result => result = .finite s x
  | .finite s x, .finite _ y, result =>
      if y = 0 then result = .notANumber
      else format.Rounds s (x - ⌊x / y⌋ * y) result

end Format

/-- The integer nearest to a number, and of two equally near ones the one away from zero. -/
def NearestAwayFromZero (exact : ℚ) (value : Int) : Prop :=
  |exact - value| ≤ 1 / 2 ∧ (|exact - value| = 1 / 2 → |exact| < |(value : ℚ)|)

end Tala.Library.BinaryFloat
