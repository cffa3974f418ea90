import Mathlib.Data.List.Lex
import Mathlib.Data.Char
import Tala.Core.TemplateIdentity
import Tala.Library.Catalog
import Tala.Library.SortedMap

/-!
# `Core.Specialization` — the catalog of concrete types

A type is interned under its identity, after parameters have been substituted and the result has been found
valid and closed. In a catalog that was made by interning alone, the numbers run from one without a gap and
every type has one of them (`SpecializationCatalog.Sound`).
-/

namespace Tala.Core

open Tala Tala.Library

/-! ## Substitution -/

mutual

def collectType : Ty → List Int
  | .namedType _ arguments => collectArguments arguments
  | .functionType parameters result => collectTypes parameters ++ collectType result
  | .typeVariable name => [name.resolvedSymbol]
  | .errorType => []

def collectTypes : List Ty → List Int
  | [] => []
  | parameter :: remaining => collectType parameter ++ collectTypes remaining

def collectArguments : List TemplateArgument → List Int
  | [] => []
  | .typeTemplateArgument nested :: remaining => collectType nested ++ collectArguments remaining
  | .valueTemplateArgument (.templateValueParameter name) :: remaining =>
      name.resolvedSymbol :: collectArguments remaining
  | .valueTemplateArgument _ :: remaining => collectArguments remaining

end

/-- The open parameters of a type. -/
def collectTemplateParameters (valueType : Ty) : List Int := Catalog.sortedUnique (collectType valueType)

def concreteTemplateType (valueType : Ty) : Bool := (collectTemplateParameters valueType).isEmpty

abbrev TypeBindings := List (Int × Ty)

abbrev ValueBindings := List (Int × TemplateValue)

mutual

def substituteTemplateType (typeBindings : TypeBindings) (valueBindings : ValueBindings) : Ty → Ty
  | .namedType name arguments => .namedType name (substituteArguments typeBindings valueBindings arguments)
  | .functionType parameters result =>
      .functionType (substituteTypes typeBindings valueBindings parameters)
        (substituteTemplateType typeBindings valueBindings result)
  | .typeVariable name => (typeBindings.lookup name.resolvedSymbol).getD (.typeVariable name)
  | .errorType => .errorType

def substituteTypes (typeBindings : TypeBindings) (valueBindings : ValueBindings) : List Ty → List Ty
  | [] => []
  | parameter :: remaining =>
      substituteTemplateType typeBindings valueBindings parameter
        :: substituteTypes typeBindings valueBindings remaining

def substituteArguments (typeBindings : TypeBindings) (valueBindings : ValueBindings) :
    List TemplateArgument → List TemplateArgument
  | [] => []
  | .typeTemplateArgument nested :: remaining =>
      .typeTemplateArgument (substituteTemplateType typeBindings valueBindings nested)
        :: substituteArguments typeBindings valueBindings remaining
  | .valueTemplateArgument (.templateValueParameter name) :: remaining =>
      .valueTemplateArgument ((valueBindings.lookup name.resolvedSymbol).getD (.templateValueParameter name))
        :: substituteArguments typeBindings valueBindings remaining
  | .valueTemplateArgument value :: remaining =>
      .valueTemplateArgument value :: substituteArguments typeBindings valueBindings remaining

end

inductive SpecializationError
  | invalidSpecialization (issues : List TemplateIssue)
  | openSpecialization (parameters : List Int)
  | duplicateTypeBinding (symbols : List Int)
  | duplicateValueBinding (symbols : List Int)
  | conflictingBindingKinds (symbols : List Int)
  deriving DecidableEq, Repr

def duplicateBindings (values : List Int) : List Int :=
  (Catalog.sortedUnique values).filter fun value => 1 < values.count value

def validateBindings (typeBindings : TypeBindings) (valueBindings : ValueBindings) :
    Except SpecializationError Unit :=
  let typeKeys := typeBindings.map Prod.fst
  let valueKeys := valueBindings.map Prod.fst
  let conflicts := (Catalog.sortedUnique typeKeys).filter fun key => valueKeys.contains key
  if !(duplicateBindings typeKeys).isEmpty then .error (.duplicateTypeBinding (duplicateBindings typeKeys))
  else if !(duplicateBindings valueKeys).isEmpty then .error (.duplicateValueBinding (duplicateBindings valueKeys))
  else if !conflicts.isEmpty then .error (.conflictingBindingKinds conflicts)
  else .ok ()

/-- Apply the bindings, and reject what is then not valid or not closed. -/
def prepareSpecialization (typeBindings : TypeBindings) (valueBindings : ValueBindings) (input : Ty) :
    Except SpecializationError Ty := do
  validateBindings typeBindings valueBindings
  let concrete := substituteTemplateType typeBindings valueBindings input
  let issues := validateTemplateType 128 concrete
  let parameters := collectTemplateParameters concrete
  if !issues.isEmpty then .error (.invalidSpecialization issues)
  else if !parameters.isEmpty then .error (.openSpecialization parameters)
  else .ok concrete

mutual

theorem substituteTemplateType_nil : ∀ valueType : Ty, substituteTemplateType [] [] valueType = valueType
  | .namedType name arguments => by rw [substituteTemplateType, substituteArguments_nil arguments]
  | .functionType parameters result => by
      rw [substituteTemplateType, substituteTypes_nil parameters, substituteTemplateType_nil result]
  | .typeVariable _ => rfl
  | .errorType => rfl

theorem substituteTypes_nil : ∀ parameters : List Ty, substituteTypes [] [] parameters = parameters
  | [] => rfl
  | parameter :: remaining => by
      rw [substituteTypes, substituteTemplateType_nil parameter, substituteTypes_nil remaining]

theorem substituteArguments_nil : ∀ arguments : List TemplateArgument,
    substituteArguments [] [] arguments = arguments
  | [] => rfl
  | .typeTemplateArgument nested :: remaining => by
      rw [substituteArguments, substituteTemplateType_nil nested, substituteArguments_nil remaining]
  | .valueTemplateArgument value :: remaining => by
      cases value <;> rw [substituteArguments, substituteArguments_nil remaining] <;>
        first | rfl | (intro _ hfalse; cases hfalse)

end

variable {input : Ty} {inserted : Bool}

/-- Without bindings, a type is prepared by leaving it as it is. -/
theorem prepareSpecialization_nil {concrete : Ty} :
    prepareSpecialization [] [] input = .ok concrete ↔
      concrete = input ∧ validateTemplateType 128 input = [] ∧ collectTemplateParameters input = [] := by
  have hbindings : validateBindings [] [] = .ok () := rfl
  unfold prepareSpecialization
  rw [hbindings, substituteTemplateType_nil]
  show (if _ then _ else _) = _ ↔ _
  split
  · next hissues =>
    constructor
    · intro h
      cases h
    · rintro ⟨_, hvalid, _⟩
      simp [hvalid] at hissues
  split
  · next hparameters =>
    constructor
    · intro h
      cases h
    · rintro ⟨_, _, hclosed⟩
      simp [hclosed] at hparameters
  · next hissues hparameters =>
    constructor
    · intro h
      cases h
      exact ⟨rfl, by simpa using hissues, by simpa using hparameters⟩
    · rintro ⟨rfl, _, _⟩
      rfl

/-! ## The catalog -/

structure Specialization where
  specializationId : Nat
  specializationIdentity : List Char
  specializationType : Ty
  deriving DecidableEq

structure SpecializationCatalog where
  catalogNextId : Nat
  catalogByIdentity : SortedMap (List Char) Specialization
  catalogById : SortedMap Nat Specialization

/-- The first number is one. -/
def emptyCatalog : SpecializationCatalog := ⟨1, ∅, ∅⟩

def catalogSize (catalog : SpecializationCatalog) : Nat := catalog.catalogById.entries.length

/-- Intern one type, and tell whether it is new. -/
def internSpecialization (input : Ty) (catalog : SpecializationCatalog) :
    Except SpecializationError (Specialization × Bool × SpecializationCatalog) := do
  let concrete ← prepareSpecialization [] [] input
  let identity := renderTemplateIdentity concrete
  match catalog.catalogByIdentity.find identity with
  | some existing => .ok (existing, false, catalog)
  | none =>
      let entry : Specialization := ⟨catalog.catalogNextId, identity, concrete⟩
      .ok (entry, true,
        ⟨catalog.catalogNextId + 1, catalog.catalogByIdentity.insert identity entry,
          catalog.catalogById.insert entry.specializationId entry⟩)

/-- Intern one type after the other; the catalog is as before if one of them is rejected. -/
def internSpecializations : List Ty → SpecializationCatalog →
    Except SpecializationError (List Specialization × SpecializationCatalog)
  | [], catalog => .ok ([], catalog)
  | input :: remaining, catalog => do
      let (entry, _, updated) ← internSpecialization input catalog
      let (entries, final) ← internSpecializations remaining updated
      .ok (entry :: entries, final)

def findSpecialization (key : Nat) (catalog : SpecializationCatalog) : Option Specialization :=
  catalog.catalogById.find key

def findSpecializationByType (input : Ty) (catalog : SpecializationCatalog) : Option Specialization :=
  catalog.catalogByIdentity.find (renderTemplateIdentity input)

def specializationSnapshot (catalog : SpecializationCatalog) : List Specialization :=
  catalog.catalogById.entries.map Prod.snd

/-! ## What interning makes -/

/-- The catalogs that are made from the empty one. -/
inductive Interned : SpecializationCatalog → Prop
  | empty : Interned emptyCatalog
  | intern {catalog catalog' : SpecializationCatalog} {input : Ty} {entry : Specialization} {inserted : Bool}
      (h : Interned catalog) (hintern : internSpecialization input catalog = .ok (entry, inserted, catalog')) :
      Interned catalog'

structure SpecializationCatalog.Sound (catalog : SpecializationCatalog) : Prop where
  first : 1 ≤ catalog.catalogNextId
  dense : ∀ id, (catalog.catalogById.find id).isSome = true ↔ 1 ≤ id ∧ id < catalog.catalogNextId
  entry : ∀ id entry, catalog.catalogById.find id = some entry →
    entry.specializationId = id ∧ validateTemplateType 128 entry.specializationType = [] ∧
      collectTemplateParameters entry.specializationType = [] ∧
      entry.specializationIdentity = renderTemplateIdentity entry.specializationType
  /-- The two indices hold the same entries. -/
  named : ∀ identity entry, catalog.catalogByIdentity.find identity = some entry ↔
    entry.specializationIdentity = identity ∧
      catalog.catalogById.find entry.specializationId = some entry

theorem emptyCatalog_sound : emptyCatalog.Sound := by
  constructor
  · exact Nat.le_refl 1
  · intro id
    constructor
    · intro h
      cases h
    · rintro ⟨hpos, hlt⟩
      have : id < 1 := hlt
      omega
  · intro id entry h
    cases h
  · intro identity entry
    constructor
    · intro h
      cases h
    · rintro ⟨_, h⟩
      cases h

variable {catalog catalog' : SpecializationCatalog} {entry : Specialization}

/-- What interning returns. -/
theorem internSpecialization_cases (h : internSpecialization input catalog = .ok (entry, inserted, catalog')) :
    validateTemplateType 128 input = [] ∧ collectTemplateParameters input = [] ∧
      ((inserted = false ∧ catalog' = catalog ∧
          catalog.catalogByIdentity.find (renderTemplateIdentity input) = some entry) ∨
        (inserted = true ∧ catalog.catalogByIdentity.find (renderTemplateIdentity input) = none ∧
          entry = ⟨catalog.catalogNextId, renderTemplateIdentity input, input⟩ ∧
          catalog' = ⟨catalog.catalogNextId + 1,
            catalog.catalogByIdentity.insert (renderTemplateIdentity input) entry,
            catalog.catalogById.insert catalog.catalogNextId entry⟩)) := by
  unfold internSpecialization at h
  cases hprepare : prepareSpecialization [] [] input with
  | error failure =>
      rw [hprepare] at h
      cases h
  | ok concrete =>
      obtain ⟨rfl, hvalid, hclosed⟩ := prepareSpecialization_nil.mp hprepare
      refine ⟨hvalid, hclosed, ?_⟩
      rw [hprepare] at h
      change (match catalog.catalogByIdentity.find (renderTemplateIdentity concrete) with
        | some existing => _
        | none => _) = _ at h
      split at h
      · next existing hfind =>
        cases h
        exact Or.inl ⟨rfl, rfl, hfind⟩
      · next hfind =>
        cases h
        exact Or.inr ⟨rfl, hfind, rfl, rfl⟩

theorem SpecializationCatalog.Sound.intern (h : catalog.Sound)
    (hintern : internSpecialization input catalog = .ok (entry, inserted, catalog')) : catalog'.Sound := by
  obtain ⟨hvalid, hclosed, ⟨rfl, rfl, hfind⟩ | ⟨rfl, hfind, hentry, rfl⟩⟩ := internSpecialization_cases hintern
  · exact h
  have hnew : catalog.catalogById.find catalog.catalogNextId = none := by
    rw [← Option.not_isSome_iff_eq_none, h.dense]
    omega
  have hfirst := h.first
  constructor
  · show 1 ≤ catalog.catalogNextId + 1
    omega
  · intro id
    show (SortedMap.find (SortedMap.insert _ _ _) id).isSome = true ↔ 1 ≤ id ∧ id < catalog.catalogNextId + 1
    rw [SortedMap.find_insert]
    split
    · next heq =>
      subst heq
      simp
      omega
    · next hne =>
      rw [h.dense]
      omega
  · intro id other hother
    change SortedMap.find (SortedMap.insert _ _ _) id = some other at hother
    rw [SortedMap.find_insert] at hother
    split at hother
    · next heq =>
      obtain rfl := Option.some.inj hother
      subst heq hentry
      exact ⟨rfl, hvalid, hclosed, rfl⟩
    · exact h.entry id other hother
  · intro identity other
    show SortedMap.find (SortedMap.insert _ _ _) identity = some other ↔
      _ ∧ SortedMap.find (SortedMap.insert _ _ _) other.specializationId = some other
    rw [SortedMap.find_insert, SortedMap.find_insert]
    constructor
    · split
      · next heq =>
        intro hsome
        obtain rfl := Option.some.inj hsome
        subst hentry
        exact ⟨heq, if_pos rfl⟩
      · next hne =>
        intro hsome
        obtain ⟨hidentity, hthere⟩ := (h.named identity other).mp hsome
        refine ⟨hidentity, ?_⟩
        rw [if_neg]
        · exact hthere
        · intro heq
          rw [← heq, hnew] at hthere
          cases hthere
    · rintro ⟨hidentity, hthere⟩
      split at hthere
      · next heq =>
        obtain rfl := Option.some.inj hthere
        subst hentry
        rw [if_pos hidentity]
      · next hne =>
        have hold := (h.named identity other).mpr ⟨hidentity, hthere⟩
        rw [if_neg]
        · exact hold
        · intro heq
          rw [← heq, hfind] at hold
          cases hold

theorem Interned.sound (h : Interned catalog) : catalog.Sound := by
  induction h with
  | empty => exact emptyCatalog_sound
  | intern _ hintern ih => exact ih.intern hintern

section Sound

variable {catalog : SpecializationCatalog}

theorem SpecializationCatalog.Sound.mem_snapshot (h : catalog.Sound) :
    entry ∈ specializationSnapshot catalog ↔
      catalog.catalogById.find entry.specializationId = some entry := by
  unfold specializationSnapshot
  rw [List.mem_map]
  constructor
  · rintro ⟨⟨id, other⟩, hmem, rfl⟩
    have hfind := SortedMap.find_eq_some_iff.mpr hmem
    rw [(h.entry id other hfind).1]
    exact hfind
  · intro hfind
    exact ⟨_, SortedMap.find_eq_some_iff.mp hfind, rfl⟩

/-- The numbers are dense from the first. -/
theorem SpecializationCatalog.Sound.snapshot_ids (h : catalog.Sound) :
    (specializationSnapshot catalog).map Specialization.specializationId
      = List.range' 1 (specializationSnapshot catalog).length := by
  have hkeys : (specializationSnapshot catalog).map Specialization.specializationId
      = catalog.catalogById.keys := by
    unfold specializationSnapshot SortedMap.keys
    rw [List.map_map]
    refine List.map_congr_left ?_
    rintro ⟨id, entry⟩ hmem
    exact (h.entry id entry (SortedMap.find_eq_some_iff.mpr hmem)).1
  have hascending : catalog.catalogById.keys.Pairwise (· < ·) :=
    List.pairwise_map.mpr catalog.catalogById.ascending
  have hrange : catalog.catalogById.keys = List.range' 1 (catalog.catalogNextId - 1) := by
    refine Catalog.eq_of_ascending (hascending.imp Nat.le_of_lt) ?_ (hascending.imp Nat.ne_of_lt)
      List.nodup_range' ?_
    · exact List.pairwise_le_range'
    · intro id
      have hfirst := h.first
      rw [SortedMap.mem_keys, h.dense, List.mem_range'_1]
      omega
  have hlength : (specializationSnapshot catalog).length = catalog.catalogNextId - 1 := by
    rw [← List.length_map Specialization.specializationId, hkeys, hrange, List.length_range']
  rw [hkeys, hrange, hlength]

/-- Entries of one type are one entry. -/
theorem SpecializationCatalog.Sound.eq_of_type (h : catalog.Sound) {other : Specialization}
    (hentry : entry ∈ specializationSnapshot catalog) (hother : other ∈ specializationSnapshot catalog)
    (htype : entry.specializationType = other.specializationType) : entry = other := by
  rw [h.mem_snapshot] at hentry hother
  have hfind := (h.named entry.specializationIdentity entry).mpr ⟨rfl, hentry⟩
  have hfind' := (h.named other.specializationIdentity other).mpr ⟨rfl, hother⟩
  rw [(h.entry _ _ hentry).2.2.2, htype] at hfind
  rw [(h.entry _ _ hother).2.2.2] at hfind'
  rw [hfind] at hfind'
  exact Option.some.inj hfind'

/-- A type is interned under its own number, whether it is new or not. -/
theorem SpecializationCatalog.Sound.intern_type (h : catalog.Sound)
    (hintern : internSpecialization input catalog = .ok (entry, inserted, catalog')) :
    entry.specializationType = input ∧ entry ∈ specializationSnapshot catalog' := by
  have hsound := h.intern hintern
  obtain ⟨hvalid, _, ⟨rfl, rfl, hfind⟩ | ⟨rfl, hfind, rfl, rfl⟩⟩ := internSpecialization_cases hintern
  · obtain ⟨hidentity, hthere⟩ := (h.named _ _).mp hfind
    refine ⟨?_, h.mem_snapshot.mpr hthere⟩
    obtain ⟨_, hentry, _, hrender⟩ := h.entry _ _ hthere
    exact renderTemplateIdentity_injective hentry hvalid (hrender.symm.trans hidentity)
  · refine ⟨rfl, hsound.mem_snapshot.mpr ?_⟩
    show SortedMap.find (SortedMap.insert _ _ _) _ = _
    rw [SortedMap.find_insert, if_pos rfl]

end Sound

end Tala.Core
