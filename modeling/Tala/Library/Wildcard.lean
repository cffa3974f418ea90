import Mathlib.Data.List.Basic

/-!
# Patterns with a wildcard for any number of values

A pattern is a list of symbols. A symbol `p` with `star p` stands for any run of values, any other
symbol for one value it is related to. The pattern and the values may have different types, so the
relation serves at two levels at once: characters inside a word, and words inside a sentence.
-/

namespace Tala.Library.Wildcard

variable {π α : Type} {star : π → Prop} {one : π → α → Prop}

/-- The values spell the pattern: a star takes any run of them, another symbol takes one. -/
inductive Spells (star : π → Prop) (one : π → α → Prop) : List π → List α → Prop
  | nil : Spells star one [] []
  | star {p : π} {rest : List π} {values : List α} (run : List α) (hp : star p)
      (h : Spells star one rest values) : Spells star one (p :: rest) (run ++ values)
  | one {p : π} {rest : List π} {value : α} {values : List α} (hp : ¬ star p) (hv : one p value)
      (h : Spells star one rest values) : Spells star one (p :: rest) (value :: values)

variable {values : List α} {p : π} {rest : List π}

@[simp] theorem spells_nil : Spells star one [] values ↔ values = [] := by
  constructor
  · intro h
    cases h
    rfl
  · rintro rfl
    exact .nil

/-- A symbol that is no star takes the first value. -/
theorem spells_one (hp : ¬ star p) :
    Spells star one (p :: rest) values ↔
      ∃ value more, values = value :: more ∧ one p value ∧ Spells star one rest more := by
  constructor
  · intro h
    cases h with
    | star _ hs _ => exact absurd hs hp
    | one _ hv h => exact ⟨_, _, rfl, hv, h⟩
  · rintro ⟨value, more, rfl, hv, h⟩
    exact .one hp hv h

/-- A star takes a run of the values. -/
theorem spells_star (hp : star p) :
    Spells star one (p :: rest) values ↔
      ∃ run more, values = run ++ more ∧ Spells star one rest more := by
  constructor
  · intro h
    cases h with
    | star run _ h => exact ⟨run, _, rfl, h⟩
    | one hs _ _ => exact absurd hp hs
  · rintro ⟨run, more, rfl, h⟩
    exact .star run hp h

/-- The backtracking step: a star takes nothing, or one value and stays. -/
theorem spells_star_step (hp : star p) :
    Spells star one (p :: rest) values ↔
      Spells star one rest values ∨
        ∃ value more, values = value :: more ∧ Spells star one (p :: rest) more := by
  rw [spells_star hp]
  constructor
  · rintro ⟨run, more, rfl, h⟩
    cases run with
    | nil => exact .inl h
    | cons value run => exact .inr ⟨value, run ++ more, rfl, .star run hp h⟩
  · rintro (h | ⟨value, more, rfl, h⟩)
    · exact ⟨[], values, rfl, h⟩
    · obtain ⟨run, left, rfl, hl⟩ := (spells_star hp).mp h
      exact ⟨value :: run, left, rfl, hl⟩

/-- A single star is spelled by every run. -/
theorem spells_only_star (hp : star p) (values : List α) : Spells star one [p] values :=
  (spells_star hp).mpr ⟨values, [], (List.append_nil values).symm, .nil⟩

/-- Two patterns in a row split the values in two. -/
theorem spells_append {first second : List π} :
    Spells star one (first ++ second) values ↔
      ∃ before after, values = before ++ after ∧ Spells star one first before ∧
        Spells star one second after := by
  induction first generalizing values with
  | nil =>
    show Spells star one second values ↔ _
    constructor
    · intro h
      exact ⟨[], values, rfl, .nil, h⟩
    · rintro ⟨before, after, rfl, hb, h⟩
      rw [spells_nil.mp hb]
      exact h
  | cons p rest ih =>
    show Spells star one (p :: (rest ++ second)) values ↔ _
    by_cases hp : star p
    · rw [spells_star hp]
      constructor
      · rintro ⟨run, more, rfl, h⟩
        obtain ⟨before, after, rfl, hb, ha⟩ := ih.mp h
        exact ⟨run ++ before, after, (List.append_assoc ..).symm, .star run hp hb, ha⟩
      · rintro ⟨before, after, rfl, hb, ha⟩
        obtain ⟨run, more, rfl, hm⟩ := (spells_star hp).mp hb
        exact ⟨run, more ++ after, List.append_assoc .., ih.mpr ⟨more, after, rfl, hm, ha⟩⟩
    · rw [spells_one hp]
      constructor
      · rintro ⟨value, more, rfl, hv, h⟩
        obtain ⟨before, after, rfl, hb, ha⟩ := ih.mp h
        exact ⟨value :: before, after, rfl, .one hp hv hb, ha⟩
      · rintro ⟨before, after, rfl, hb, ha⟩
        obtain ⟨value, more, rfl, hv, hm⟩ := (spells_one hp).mp hb
        exact ⟨value, more ++ after, rfl, hv, ih.mpr ⟨more, after, rfl, hm, ha⟩⟩

/-- A pattern with a star behind it is spelled by what begins with a spelling of it. -/
theorem spells_append_star {first : List π} (hp : star p) :
    Spells star one (first ++ [p]) values ↔
      ∃ before, before <+: values ∧ Spells star one first before := by
  rw [spells_append]
  constructor
  · rintro ⟨before, after, rfl, hb, -⟩
    exact ⟨before, List.prefix_append before after, hb⟩
  · rintro ⟨before, ⟨after, rfl⟩, hb⟩
    exact ⟨before, after, rfl, hb, spells_only_star hp after⟩

end Tala.Library.Wildcard
