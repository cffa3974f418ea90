import Mathlib.Order.Lattice
import Mathlib.Data.List.Dedup
import Mathlib.Data.List.Sort
import Mathlib.Data.List.NodupEquivFin

/-!
# `Library.Catalog` — sorted catalogs without repetition, and their dense indices

`sortedUnique` lists the elements of a list once, in ascending order. It depends on which elements there
are and on nothing else (`sortedUnique_congr`), so whatever is indexed by it does not depend on the
order in which things were presented. `index?` is the position of an element, as a `Fin`.
-/

namespace Tala.Library.Catalog

variable {α : Type}

section Sorted

variable [LinearOrder α] {l l' : List α} {x : α}

/-- The elements of a list, each once, ascending. -/
def sortedUnique (l : List α) : List α := l.dedup.insertionSort (· ≤ ·)

@[simp] theorem mem_sortedUnique : x ∈ sortedUnique l ↔ x ∈ l := by
  unfold sortedUnique
  rw [List.mem_insertionSort, List.mem_dedup]

theorem sortedUnique_nodup (l : List α) : (sortedUnique l).Nodup :=
  (List.perm_insertionSort (· ≤ ·) l.dedup).nodup_iff.mpr (List.nodup_dedup l)

theorem sortedUnique_ascending (l : List α) : (sortedUnique l).Pairwise (· ≤ ·) :=
  List.pairwise_insertionSort (· ≤ ·) l.dedup

/-- Ascending lists without repetition that have the same elements are the same. -/
theorem eq_of_ascending (hl : l.Pairwise (· ≤ ·))
    (hl' : l'.Pairwise (· ≤ ·)) (hnodup : l.Nodup) (hnodup' : l'.Nodup) (h : ∀ x, x ∈ l ↔ x ∈ l') :
    l = l' :=
  List.Perm.eq_of_pairwise' hl hl' ((List.perm_ext_iff_of_nodup hnodup hnodup').mpr h)

/-- The catalog depends on the elements only. -/
theorem sortedUnique_congr (h : ∀ x, x ∈ l ↔ x ∈ l') : sortedUnique l = sortedUnique l' := by
  refine eq_of_ascending (sortedUnique_ascending l) (sortedUnique_ascending l') (sortedUnique_nodup l)
    (sortedUnique_nodup l') fun x => ?_
  rw [mem_sortedUnique, mem_sortedUnique]
  exact h x

end Sorted

section Index

variable [DecidableEq α] {values : List α} {x : α}

/-- The position of an element. -/
def index? (values : List α) (x : α) : Option (Fin values.length) :=
  if h : x ∈ values then some ⟨values.idxOf x, List.idxOf_lt_length_of_mem h⟩ else none

theorem index?_eq_none : index? values x = none ↔ x ∉ values := by
  unfold index?
  by_cases h : x ∈ values <;> simp [h]

theorem get_of_index? {i : Fin values.length} (h : index? values x = some i) : values.get i = x := by
  unfold index? at h
  split at h
  · rw [← Option.some.inj h]
    simp
  · cases h

theorem index?_isSome (h : x ∈ values) : ∃ i, index? values x = some i :=
  ⟨_, by rw [index?, dif_pos h]⟩

theorem index?_get (hvalues : values.Nodup) (i : Fin values.length) :
    index? values (values.get i) = some i := by
  unfold index?
  rw [dif_pos (List.get_mem values i)]
  simp [hvalues.idxOf_getElem]

/-- Two elements of the catalog share no position. -/
theorem index?_inj {y : α} {i : Fin values.length} (hx : index? values x = some i)
    (hy : index? values y = some i) : x = y := by
  rw [← get_of_index? hx, get_of_index? hy]

end Index

/-! ## Records listed by key -/

/-- Looking up a key among records made from keys. -/
theorem find?_map_of_key {κ ρ : Type} [DecidableEq κ] (key : ρ → κ) (make : κ → ρ)
    (hkey : ∀ k, key (make k) = k) (keys : List κ) (k : κ) :
    (keys.map make).find? (fun r => key r == k) = if k ∈ keys then some (make k) else none := by
  induction keys with
  | nil => simp
  | cons first rest ih =>
      rw [List.map_cons, List.find?_cons, hkey]
      by_cases h : first = k
      · simp [h]
      · rw [beq_false_of_ne h, ih]
        simp [Ne.symm h]

/-- With distinct keys the first record of a key is the only one, wherever it stands. -/
theorem find?_eq_of_perm {κ ρ : Type} [DecidableEq κ] (key : ρ → κ) {l l' : List ρ} (h : l.Perm l')
    (hnodup : (l.map key).Nodup) (k : κ) :
    l.find? (fun r => key r == k) = l'.find? (fun r => key r == k) := by
  induction h with
  | nil => rfl
  | cons r _ ih =>
      rw [List.find?_cons, List.find?_cons, ih (List.nodup_cons.mp hnodup).2]
  | swap r r' rest =>
      have hne : key r' ≠ key r := by
        intro heq
        exact (List.nodup_cons.mp hnodup).1 (by simp [heq])
      simp only [List.find?_cons]
      by_cases hr : key r = k
      · have hr' : (key r' == k) = false := beq_false_of_ne (fun hc => hne (hc.trans hr.symm))
        simp [hr, hr']
      · simp [beq_false_of_ne hr]
  | trans hab _ ihab ihbc =>
      rw [ihab hnodup, ihbc ((hab.map key).nodup_iff.mp hnodup)]

/-- Records listed in another order, each replaced by a related one of its key. -/
theorem find?_relisted {κ ρ : Type} [DecidableEq κ] (key : ρ → κ) {related : ρ → ρ → Prop}
    (hkey : ∀ r r', related r r' → key r' = key r) {l middle l' : List ρ} (h : l.Perm middle)
    (hrelated : List.Forall₂ related middle l') (hnodup : (l.map key).Nodup) (k : κ) :
    (l.find? (fun r => key r == k) = none ∧ l'.find? (fun r => key r == k) = none) ∨
      ∃ r r', l.find? (fun r => key r == k) = some r ∧ l'.find? (fun r => key r == k) = some r' ∧
        related r r' := by
  rw [find?_eq_of_perm key h hnodup k]
  clear h
  induction hrelated with
  | nil => exact Or.inl ⟨rfl, rfl⟩
  | @cons r r' _ _ hr _ ih =>
      rw [List.find?_cons, List.find?_cons, hkey r r' hr]
      by_cases hk : key r = k
      · exact Or.inr ⟨r, r', by simp [hk], by simp [hk], hr⟩
      · rw [beq_false_of_ne hk]
        exact ih

end Tala.Library.Catalog
