import Mathlib.Algebra.Order.Ring.Int

/-!
# `Runtime.Scalars` — a growable sequence of scalars

Storage comes from the allocation function, which may refuse it: then the program is stopped, here `none`.
`Reserve` doubles the capacity, or takes what is asked for when that is more.

`Yields` says that a result is as stated or that storage was refused. It composes along the steps of a caller
(`Yields.bind`), so that a lemma about the caller names one content for everything that it appends.
-/

namespace Tala.Runtime.Text

/-- The most scalars that `Reserve` asks for: `kLimit`. No larger object is granted either, as its size in
bytes would not be the difference of two addresses. -/
def limit : Nat := (2 ^ 64 - 1) / 4 / 2

/-- What the allocation function grants, by the scalars that the storage has room for. -/
structure Allocator where
  grants : Nat → Bool
  limited : ∀ capacity, grants capacity = true → capacity ≤ limit

structure Scalars where
  content : List Char
  capacity : Nat
  fits : content.length ≤ capacity
  bounded : capacity ≤ limit

namespace Scalars

def inlineCapacity : Nat := 64

def empty : Scalars := ⟨[], inlineCapacity, by decide, by decide⟩

def size (scalars : Scalars) : Nat := scalars.content.length

/-- The capacity asked for when there is no room for more. -/
def grownCapacity (scalars : Scalars) (more : Nat) : Nat :=
  if scalars.capacity * 2 < scalars.size + more then scalars.size + more else scalars.capacity * 2

theorem le_grownCapacity (scalars : Scalars) (more : Nat) :
    scalars.size + more ≤ scalars.grownCapacity more := by
  unfold grownCapacity
  split <;> omega

/-- The same content with room for more. -/
def reserve (allocator : Allocator) (scalars : Scalars) (more : Nat) :
    Option { grown : Scalars // grown.content = scalars.content ∧ scalars.size + more ≤ grown.capacity } :=
  if hroom : more ≤ scalars.capacity - scalars.size then
    some ⟨scalars, rfl, by
      have hfits : scalars.size ≤ scalars.capacity := scalars.fits
      omega⟩
  else if limit - scalars.size < more then none
  else if hgrants : allocator.grants (scalars.grownCapacity more) = true then
    some ⟨⟨scalars.content, scalars.grownCapacity more,
        le_trans (Nat.le_add_right _ _) (scalars.le_grownCapacity more),
        allocator.limited _ hgrants⟩, rfl, scalars.le_grownCapacity more⟩
  else none

/-- Scalars appended after one reservation. -/
def appendAll (allocator : Allocator) (scalars : Scalars) (added : List Char) : Option Scalars :=
  (scalars.reserve allocator added.length).map fun grown =>
    ⟨scalars.content ++ added, grown.val.capacity, by
      rw [List.length_append]
      exact grown.property.2, grown.val.bounded⟩

def append (allocator : Allocator) (scalars : Scalars) (scalar : Char) : Option Scalars :=
  scalars.appendAll allocator [scalar]

/-- The characters of an ASCII text, one by one. -/
def appendAscii (allocator : Allocator) (scalars : Scalars) : List Char → Option Scalars
  | [] => some scalars
  | scalar :: text => (scalars.append allocator scalar).bind fun scalars => scalars.appendAscii allocator text

def fill (allocator : Allocator) (scalars : Scalars) (scalar : Char) (count : Nat) : Option Scalars :=
  scalars.appendAll allocator (List.replicate count scalar)

def reverseFrom (scalars : Scalars) (first : Nat) : Scalars :=
  if scalars.size < first + 2 then scalars
  else
    { scalars with
      content := scalars.content.take first ++ (scalars.content.drop first).reverse
      fits := by
        rw [List.length_append, List.length_reverse, ← List.length_append, List.take_append_drop]
        exact scalars.fits }

theorem reverseFrom_zero (scalars : Scalars) : (scalars.reverseFrom 0).content = scalars.content.reverse := by
  unfold reverseFrom
  split
  · rename_i hshort
    have hlength : scalars.content.length < 2 := hshort
    match hcontent : scalars.content with
    | [] => rfl
    | [_] => rfl
    | _ :: _ :: _ =>
        rw [hcontent] at hlength
        simp only [List.length_cons] at hlength
        omega
  · simp

/-! ## What is appended, or refused -/

/-- Storage for up to twice as many scalars is granted. -/
def Grants (allocator : Allocator) (total : Nat) : Prop :=
  ∀ capacity, capacity ≤ 2 * total → allocator.grants capacity = true

end Scalars

open Scalars

/-- The result is as stated, or storage for so many scalars was refused. -/
structure Yields {α : Type} (allocator : Allocator) (length : Nat) (post : α → Prop) (result : Option α) :
    Prop where
  exact : ∀ value, result = some value → post value
  granted : ∀ total, length ≤ total → Grants allocator total → ∃ value, result = some value

section Yields

variable {α β : Type} {allocator : Allocator} {length length' : Nat} {post : α → Prop} {post' : β → Prop}
  {result : Option α}

theorem yields_some {value : α} (h : post value) : Yields allocator length post (some value) where
  exact := by
    intro found hfound
    cases hfound
    exact h
  granted := fun _ _ _ => ⟨value, rfl⟩

/-- A step after steps that need no more storage. -/
theorem Yields.bind {step : α → Option β} (h : Yields allocator length post result) (hlength : length ≤ length')
    (hstep : ∀ value, post value → Yields allocator length' post' (step value)) :
    Yields allocator length' post' (result.bind step) where
  exact := by
    intro value hvalue
    rw [Option.bind_eq_some_iff] at hvalue
    obtain ⟨between, hbetween, hvalue⟩ := hvalue
    exact (hstep between (h.exact between hbetween)).exact value hvalue
  granted := by
    intro total htotal hgrants
    obtain ⟨between, hbetween⟩ := h.granted total (le_trans hlength htotal) hgrants
    rw [hbetween]
    exact (hstep between (h.exact between hbetween)).granted total htotal hgrants

theorem Yields.map {f : α → β} (h : Yields allocator length post result)
    (hpost : ∀ value, post value → post' (f value)) : Yields allocator length post' (result.map f) := by
  rw [Option.map_eq_bind]
  exact h.bind le_rfl fun value hvalue => yields_some (hpost value hvalue)

end Yields

namespace Scalars

variable {allocator : Allocator} {content : List Char} {scalars : Scalars}

/-- What is granted lets the sequence grow. -/
theorem reserve_isSome (scalars : Scalars) {more total : Nat} (htotal : scalars.size + more ≤ total)
    (hgrants : Grants allocator total) : ∃ grown, scalars.reserve allocator more = some grown := by
  unfold reserve
  by_cases hroom : more ≤ scalars.capacity - scalars.size
  · rw [dif_pos hroom]
    exact ⟨_, rfl⟩
  · -- the capacity that is too small is below the total, and so its double is granted
    have hlimit := allocator.limited _ (hgrants (2 * total) le_rfl)
    have hasked : scalars.grownCapacity more ≤ 2 * total := by
      unfold grownCapacity
      split <;> omega
    rw [dif_neg hroom, if_neg (by omega), dif_pos (hgrants _ hasked)]
    exact ⟨_, rfl⟩

/-- The content becomes the one given, where there is storage for it. -/
def Becomes (allocator : Allocator) (content : List Char) (result : Option Scalars) : Prop :=
  Yields allocator content.length (fun scalars : Scalars => scalars.content = content) result

theorem appendAll_becomes {added : List Char} (h : scalars.content ++ added = content) :
    Becomes allocator content (scalars.appendAll allocator added) where
  exact := by
    intro grown hgrown
    unfold appendAll at hgrown
    rw [Option.map_eq_some_iff] at hgrown
    obtain ⟨reserved, _, rfl⟩ := hgrown
    exact h
  granted := by
    intro total htotal hgrants
    rw [← h, List.length_append] at htotal
    obtain ⟨reserved, hreserved⟩ := scalars.reserve_isSome htotal hgrants
    unfold appendAll
    rw [hreserved]
    exact ⟨_, rfl⟩

theorem append_becomes {scalar : Char} (h : scalars.content ++ [scalar] = content) :
    Becomes allocator content (scalars.append allocator scalar) :=
  appendAll_becomes h

theorem fill_becomes {scalar : Char} {count : Nat} (h : scalars.content ++ List.replicate count scalar = content) :
    Becomes allocator content (scalars.fill allocator scalar count) :=
  appendAll_becomes h

theorem appendAscii_becomes {text : List Char} (h : scalars.content ++ text = content) :
    Becomes allocator content (scalars.appendAscii allocator text) := by
  induction text generalizing scalars with
  | nil =>
      rw [List.append_nil] at h
      exact yields_some h
  | cons scalar text ih =>
      have hfirst : Becomes allocator (scalars.content ++ [scalar]) (scalars.append allocator scalar) :=
        append_becomes rfl
      refine Yields.bind hfirst ?_ fun grown hgrown => ih ?_
      · simp [← h]
      · rw [hgrown, List.append_assoc]
        exact h

/-- A content longer than any object is refused. -/
theorem Becomes.eq_none {result : Option Scalars} (h : Becomes allocator content result)
    (hlong : limit < content.length) : result = none := by
  cases hresult : result with
  | none => rfl
  | some scalars =>
      have hfits := scalars.fits
      rw [h.exact scalars hresult] at hfits
      have hbounded := scalars.bounded
      omega

end Scalars

end Tala.Runtime.Text
