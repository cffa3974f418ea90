import Mathlib.Algebra.Order.Ring.Int
import Mathlib.Order.Monotone.Basic

/-!
# `Library.Corners` — ranges of two-argument operations over a box

An operation that is monotone or antitone in each argument, the direction possibly depending on the
other argument, takes its extreme values over a box at the four corners. Addition, subtraction and
multiplication of integers are such operations.
-/

namespace Tala.Library

section Order

variable {α β γ : Type} [LinearOrder α] [LinearOrder β] [LinearOrder γ]

/-- Least of the four corner values. -/
def cornerMinimum (f : α → β → γ) (a a' : α) (b b' : β) : γ :=
  min (min (f a b) (f a b')) (min (f a' b) (f a' b'))

/-- Greatest of the four corner values. -/
def cornerMaximum (f : α → β → γ) (a a' : α) (b b' : β) : γ :=
  max (max (f a b) (f a b')) (max (f a' b) (f a' b'))

/-- Monotone or antitone in each argument. -/
structure Unidirectional (f : α → β → γ) : Prop where
  left : ∀ y, Monotone (fun x => f x y) ∨ Antitone (fun x => f x y)
  right : ∀ x, Monotone (f x) ∨ Antitone (f x)

/-- A function of one direction lies between its values at the ends of an interval. -/
theorem between_ends {g : α → γ} (hg : Monotone g ∨ Antitone g) {a a' x : α} (hlow : a ≤ x)
    (hhigh : x ≤ a') : min (g a) (g a') ≤ g x ∧ g x ≤ max (g a) (g a') := by
  rcases hg with hg | hg
  · exact ⟨le_trans (min_le_left _ _) (hg hlow), le_trans (hg hhigh) (le_max_right _ _)⟩
  · exact ⟨le_trans (min_le_right _ _) (hg hhigh), le_trans (hg hlow) (le_max_left _ _)⟩

/-- **Corner bounds**: over a box the operation stays between its extreme corner values. -/
theorem Unidirectional.corner_bounds {f : α → β → γ} (hf : Unidirectional f) {a a' x : α}
    {b b' y : β} (ha : a ≤ x) (ha' : x ≤ a') (hb : b ≤ y) (hb' : y ≤ b') :
    cornerMinimum f a a' b b' ≤ f x y ∧ f x y ≤ cornerMaximum f a a' b b' := by
  -- first along the left argument, then along both vertical edges
  obtain ⟨hmin, hmax⟩ := between_ends (hf.left y) ha ha'
  obtain ⟨hmin₁, hmax₁⟩ := between_ends (hf.right a) hb hb'
  obtain ⟨hmin₂, hmax₂⟩ := between_ends (hf.right a') hb hb'
  exact ⟨le_trans (min_le_min hmin₁ hmin₂) hmin, le_trans hmax (max_le_max hmax₁ hmax₂)⟩

end Order

theorem unidirectional_add : Unidirectional (fun x y : Int => x + y) where
  left y := .inl fun _ _ h => Int.add_le_add_right h y
  right x := .inl fun _ _ h => Int.add_le_add_left h x

theorem unidirectional_sub : Unidirectional (fun x y : Int => x - y) where
  left y := .inl fun _ _ h => Int.sub_le_sub_right h y
  right x := .inr fun _ _ h => Int.sub_le_sub_left h x

theorem unidirectional_mul : Unidirectional (fun x y : Int => x * y) where
  left y := by
    rcases le_total 0 y with hy | hy
    · exact .inl fun _ _ h => Int.mul_le_mul_of_nonneg_right h hy
    · exact .inr fun _ _ h => Int.mul_le_mul_of_nonpos_right h hy
  right x := by
    rcases le_total 0 x with hx | hx
    · exact .inl fun _ _ h => Int.mul_le_mul_of_nonneg_left h hx
    · exact .inr fun _ _ h => Int.mul_le_mul_of_nonpos_left hx h

end Tala.Library
