import Mathlib.Order.Lattice
import Mathlib.Data.List.Basic
import Mathlib.Data.List.Nodup
import Mathlib.Data.List.Pairwise

/-!
# `Library.SortedMap` — finite maps as strictly ascending association lists

A finite map keyed by a linear order, kept as its list of entries in ascending key order. The order is
a field of the structure, so two maps with the same lookups are *equal* (`SortedMap.ext_find`): an
analysis may compare two environments with `==` and the answer is the extensional one.

Every operation comes with one lookup equation (`find_insert`, `find_erase`, `find_intersectWith`, …);
clients reason through those and never look at the entry list again.
-/

namespace Tala.Library

/-- A finite map from `κ` to `α`: its entries, strictly ascending in the key. -/
structure SortedMap (κ α : Type) [LinearOrder κ] where
  entries : List (κ × α)
  ascending : entries.Pairwise (fun p q => p.1 < q.1)

namespace SortedMap

variable {κ α β γ : Type} [LinearOrder κ]

instance [DecidableEq α] : DecidableEq (SortedMap κ α) := fun a b =>
  decidable_of_iff (a.entries = b.entries)
    ⟨fun h => by cases a; cases b; cases h; rfl, fun h => h ▸ rfl⟩

/-! ## Lookup on entry lists -/

/-- First value stored under a key. -/
def findEntry (key : κ) : List (κ × α) → Option α
  | [] => none
  | (k, v) :: rest => if k = key then some v else findEntry key rest

/-- Replace or add one entry, keeping the order. -/
def insertEntry (key : κ) (value : α) : List (κ × α) → List (κ × α)
  | [] => [(key, value)]
  | (k, v) :: rest =>
      if key < k then (key, value) :: (k, v) :: rest
      else if k = key then (key, value) :: rest
      else (k, v) :: insertEntry key value rest

variable {key : κ} {l : List (κ × α)} {value : α}

theorem findEntry_eq_none_of_forall (h : ∀ p ∈ l, p.1 ≠ key) : findEntry key l = none := by
  induction l with
  | nil => rfl
  | cons p rest ih =>
      obtain ⟨k, v⟩ := p
      rw [findEntry, if_neg (h (k, v) (by simp))]
      exact ih (fun q hq => h q (List.mem_cons_of_mem _ hq))

theorem findEntry_eq_some_iff (hl : l.Pairwise (fun p q => p.1 < q.1)) :
    findEntry key l = some value ↔ (key, value) ∈ l := by
  induction l with
  | nil => simp [findEntry]
  | cons p rest ih =>
      obtain ⟨k, v⟩ := p
      have hhead := (List.pairwise_cons.mp hl).1
      have htail := (List.pairwise_cons.mp hl).2
      by_cases hk : k = key
      · subst hk
        have hnot : (k, value) ∉ rest := fun hm => lt_irrefl _ (hhead (k, value) hm)
        simp [findEntry, hnot, eq_comm]
      · rw [findEntry, if_neg hk, ih htail, List.mem_cons]
        constructor
        · exact Or.inr
        · rintro (h | h)
          · exact absurd (Prod.mk.inj h).1.symm hk
          · exact h

theorem mem_insertEntry_key {p : κ × α} (h : p ∈ insertEntry key value l) : p.1 = key ∨ p ∈ l := by
  induction l with
  | nil => simp only [insertEntry, List.mem_singleton] at h; exact Or.inl (by rw [h])
  | cons q rest ih =>
      obtain ⟨k, v⟩ := q
      simp only [insertEntry] at h
      split at h
      · rcases List.mem_cons.mp h with h | h
        · exact Or.inl (by rw [h])
        · exact Or.inr h
      · split at h
        · rcases List.mem_cons.mp h with h | h
          · exact Or.inl (by rw [h])
          · exact Or.inr (List.mem_cons_of_mem _ h)
        · rcases List.mem_cons.mp h with h | h
          · exact Or.inr (by rw [h]; simp)
          · exact (ih h).imp id (List.mem_cons_of_mem _)

theorem insertEntry_ascending (hl : l.Pairwise (fun p q => p.1 < q.1)) :
    (insertEntry key value l).Pairwise (fun p q => p.1 < q.1) := by
  induction l with
  | nil => simp [insertEntry]
  | cons p rest ih =>
      obtain ⟨k, v⟩ := p
      have hhead := (List.pairwise_cons.mp hl).1
      have htail := (List.pairwise_cons.mp hl).2
      simp only [insertEntry]
      split
      · next hlt =>
          refine List.pairwise_cons.mpr ⟨fun q hq => ?_, hl⟩
          rcases List.mem_cons.mp hq with rfl | hq
          · exact hlt
          · exact lt_trans hlt (hhead q hq)
      · next hlt =>
          split
          · next heq => subst heq; exact List.pairwise_cons.mpr ⟨hhead, htail⟩
          · next hne =>
              refine List.pairwise_cons.mpr ⟨fun q hq => ?_, ih htail⟩
              rcases mem_insertEntry_key hq with hq | hq
              · rw [hq]; exact lt_of_le_of_ne (not_lt.mp hlt) hne
              · exact hhead q hq

theorem findEntry_insertEntry {k : κ} :
    findEntry k (insertEntry key value l) = if key = k then some value else findEntry k l := by
  induction l with
  | nil => simp [insertEntry, findEntry]
  | cons p rest ih =>
      obtain ⟨k', v⟩ := p
      simp only [insertEntry]
      split
      · simp [findEntry]
      · split
        · next heq => subst heq; by_cases hk : k' = k <;> simp [findEntry, hk]
        · next hne =>
            simp only [findEntry, ih]
            by_cases hk : k' = k
            · subst hk
              have hne' : key ≠ k' := fun h => hne h.symm
              simp [hne']
            · simp [hk]

/-! ## The operations -/

/-- The map without entries. -/
def empty : SortedMap κ α := ⟨[], List.Pairwise.nil⟩

instance : EmptyCollection (SortedMap κ α) := ⟨empty⟩

/-- `Map.lookup`. -/
def find (m : SortedMap κ α) (key : κ) : Option α := findEntry key m.entries

/-- `Map.insert`. -/
def insert (m : SortedMap κ α) (key : κ) (value : α) : SortedMap κ α :=
  ⟨insertEntry key value m.entries, insertEntry_ascending m.ascending⟩

/-- `Map.filterWithKey`. -/
def filter (p : κ → α → Bool) (m : SortedMap κ α) : SortedMap κ α :=
  ⟨m.entries.filter (fun e => p e.1 e.2), m.ascending.filter _⟩

/-- `Map.delete`. -/
def erase (m : SortedMap κ α) (key : κ) : SortedMap κ α := m.filter (fun k _ => k ≠ key)

/-- `Map.fromList`: a later entry replaces an earlier one of the same key. -/
def ofList (entries : List (κ × α)) : SortedMap κ α :=
  entries.foldl (fun m e => m.insert e.1 e.2) empty

/-- `Map.union`: the entries of the left map take precedence. -/
def union (left right : SortedMap κ α) : SortedMap κ α :=
  left.entries.foldl (fun m e => m.insert e.1 e.2) right

/-- `Map.mergeWithKey` that drops the keys only one side has. -/
def intersectWith (f : κ → α → β → γ) (left : SortedMap κ α) (right : SortedMap κ β) :
    SortedMap κ γ :=
  ⟨left.entries.filterMap (fun e => (right.find e.1).map (fun w => (e.1, f e.1 e.2 w))), by
    refine List.pairwise_filterMap.mpr (left.ascending.imp ?_)
    intro a b hab p hp q hq
    simp only [Option.map_eq_some_iff] at hp hq
    obtain ⟨_, _, rfl⟩ := hp
    obtain ⟨_, _, rfl⟩ := hq
    exact hab⟩

/-- `Map.keys`, ascending. -/
def keys (m : SortedMap κ α) : List κ := m.entries.map Prod.fst

/-! ## Lookup equations -/

theorem find_eq_some_iff {m : SortedMap κ α} : m.find key = some value ↔ (key, value) ∈ m.entries :=
  findEntry_eq_some_iff m.ascending

@[simp] theorem find_empty (key : κ) : (empty : SortedMap κ α).find key = none := rfl

@[simp] theorem find_insert (m : SortedMap κ α) (key k : κ) (value : α) :
    (m.insert key value).find k = if key = k then some value else m.find k :=
  findEntry_insertEntry

theorem find_filter (m : SortedMap κ α) (p : κ → α → Bool) (key : κ) :
    (m.filter p).find key = (m.find key).filter (p key) := by
  refine Option.ext (fun v => ?_)
  rw [find_eq_some_iff, filter, List.mem_filter, Option.filter_eq_some_iff, find_eq_some_iff]

@[simp] theorem find_erase (m : SortedMap κ α) (key k : κ) :
    (m.erase key).find k = if key = k then none else m.find k := by
  rw [erase, find_filter]
  by_cases h : key = k
  · subst h; cases m.find key <;> simp
  · cases hm : m.find k <;> simp [h, Ne.symm h]

@[simp] theorem find_intersectWith (f : κ → α → β → γ) (left : SortedMap κ α)
    (right : SortedMap κ β) (key : κ) :
    (left.intersectWith f right).find key =
      (left.find key).bind (fun v => (right.find key).map (f key v)) := by
  refine Option.ext (fun w => ?_)
  rw [find_eq_some_iff, intersectWith, List.mem_filterMap]
  simp only [Option.map_eq_some_iff, Option.bind_eq_some_iff, Prod.mk.injEq, Prod.exists]
  constructor
  · rintro ⟨k, v, hm, w', hw', rfl, rfl⟩
    exact ⟨v, find_eq_some_iff.mpr hm, w', hw', rfl⟩
  · rintro ⟨v, hv, w', hw', rfl⟩
    exact ⟨key, v, find_eq_some_iff.mp hv, w', hw', rfl, rfl⟩

/-- Folding insertions: the last entry of a key wins, otherwise the seed answers. -/
theorem find_foldl_insert (l : List (κ × α)) (m : SortedMap κ α) (key : κ) :
    (l.foldl (fun m e => m.insert e.1 e.2) m).find key =
      (findEntry key l.reverse).or (m.find key) := by
  induction l generalizing m with
  | nil => simp [findEntry]
  | cons p rest ih =>
      have hsplit : findEntry key (rest.reverse ++ [p]) =
          (findEntry key rest.reverse).or (if p.1 = key then some p.2 else none) := by
        induction rest.reverse with
        | nil => obtain ⟨k, v⟩ := p; simp [findEntry]
        | cons q qs ihq =>
            obtain ⟨k, v⟩ := q
            by_cases hk : k = key <;> simp [findEntry, hk, ihq]
      rw [List.foldl_cons, ih, find_insert, List.reverse_cons, hsplit, Option.or_assoc]
      congr 1
      by_cases hk : p.1 = key <;> simp [hk]

theorem find_ofList (l : List (κ × α)) (key : κ) : (ofList l).find key = findEntry key l.reverse := by
  rw [ofList, find_foldl_insert]; simp

/-- With distinct keys, what is found is what is there. -/
theorem find_ofList_eq_some_iff (h : (l.map Prod.fst).Nodup) :
    (ofList l).find key = some value ↔ (key, value) ∈ l := by
  rw [find_ofList]
  have hkeys : (l.reverse.map Prod.fst).Nodup := by
    rw [List.map_reverse]
    exact List.nodup_reverse.mpr h
  rw [← List.mem_reverse]
  generalize l.reverse = l at hkeys
  induction l with
  | nil => simp [findEntry]
  | cons p rest ih =>
      obtain ⟨k, v⟩ := p
      rw [List.map_cons, List.nodup_cons] at hkeys
      rw [findEntry, List.mem_cons, Prod.mk.injEq]
      by_cases hk : k = key
      · subst hk
        have hrest : (k, value) ∉ rest := fun hmem => hkeys.1 (List.mem_map.mpr ⟨(k, value), hmem, rfl⟩)
        simp [hrest, eq_comm]
      · have htail := ih hkeys.2
        rw [if_neg hk]
        simp [htail, Ne.symm hk]

@[simp] theorem find_union (left right : SortedMap κ α) (key : κ) :
    (left.union right).find key = (left.find key).or (right.find key) := by
  rw [union, find_foldl_insert]
  congr 1
  -- reversing a list with distinct keys does not change what is found
  cases hl : left.find key with
  | some v =>
      have hm := find_eq_some_iff.mp hl
      have hp : left.entries.reverse.Pairwise (fun p q => p.1 ≠ q.1) :=
        List.pairwise_reverse.mpr (left.ascending.imp fun h => ne_of_gt h)
      exact findEntry_of_mem hp (List.mem_reverse.mpr hm)
  | none =>
      refine findEntry_eq_none_of_forall (fun p hp hk => ?_)
      have : left.find key = some p.2 :=
        find_eq_some_iff.mpr (by rw [← hk]; exact List.mem_reverse.mp hp)
      simp [hl] at this
where
  findEntry_of_mem {key : κ} {value : α} {l : List (κ × α)}
      (hl : l.Pairwise (fun p q => p.1 ≠ q.1)) (h : (key, value) ∈ l) :
      findEntry key l = some value := by
    induction l with
    | nil => simp at h
    | cons p rest ih =>
        obtain ⟨k, v⟩ := p
        have hhead := (List.pairwise_cons.mp hl).1
        rcases List.mem_cons.mp h with h | h
        · obtain ⟨rfl, rfl⟩ := Prod.mk.inj h; simp [findEntry]
        · rw [findEntry, if_neg (hhead _ h)]
          exact ih (List.pairwise_cons.mp hl).2 h

/-- The keys of the map, as the clients see them. -/
theorem mem_keys {m : SortedMap κ α} : key ∈ m.keys ↔ (m.find key).isSome := by
  rw [keys, List.mem_map, Option.isSome_iff_exists]
  constructor
  · rintro ⟨⟨k, v⟩, hm, rfl⟩; exact ⟨v, find_eq_some_iff.mpr hm⟩
  · rintro ⟨v, hv⟩; exact ⟨(key, v), find_eq_some_iff.mp hv, rfl⟩

end SortedMap
end Tala.Library
