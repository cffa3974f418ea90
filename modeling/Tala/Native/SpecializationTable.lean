import Tala.Core.Specialization
import Tala.Core.WireRoundTrip
import Tala.Native.Template

/-!
# `Native.SpecializationTable` — the native table of concrete types, and the frontend's catalog

The native table numbers types as the frontend's catalog does: from one without a gap, and every type once
(`SpecializationTable.Sound`), however the calls of several threads interleave.

The two compilers write different texts for a type, but they agree on which types are the same
(`renderIdentity_iff_renderTemplateIdentity`).
-/

namespace Tala.Native.Template

open Tala Tala.Core Tala.Core.Wire Tala.Library

/-! ## The table -/

structure Specialization where
  id : Nat
  identity : List Char
  type : RawType

structure SpecializationTable where
  byIdentity : List (List Char × Nat)
  entries : List Specialization

structure InternResult where
  specialization : Option Specialization
  issues : List Issue
  inserted : Bool

def SpecializationTable.empty : SpecializationTable := ⟨[], []⟩

/-- What is done before the table is looked at: the identity of a valid and concrete type. -/
def identify (type : RawType) : Except (List Issue) (List Char) :=
  let issues := validate type 128
  if !issues.isEmpty then .error issues
  else if !isConcrete type then
    .error [⟨.unboundParameter, [], "specialization table accepts only concrete types"⟩]
  else .ok (renderIdentity type)

namespace SpecializationTable

def lookup (table : SpecializationTable) (identity : List Char) : Option InternResult :=
  match table.byIdentity.lookup identity with
  | some id => some ⟨table.entries[id - 1]?, [], false⟩
  | none => none

/-- What is done under the exclusive lock. -/
def insertLocked (table : SpecializationTable) (identity : List Char) (type : RawType) :
    InternResult × SpecializationTable :=
  match table.lookup identity with
  | some found => (found, table)
  | none =>
      let entry : Specialization := ⟨table.entries.length + 1, identity, type⟩
      (⟨some entry, [], true⟩, ⟨(identity, entry.id) :: table.byIdentity, table.entries ++ [entry]⟩)

/-- A call that no other call interrupts. -/
def intern (table : SpecializationTable) (type : RawType) : InternResult × SpecializationTable :=
  match identify type with
  | .error issues => (⟨none, issues, false⟩, table)
  | .ok identity =>
      match table.lookup identity with
      | some found => (found, table)
      | none => table.insertLocked identity type

end SpecializationTable

/-- The tables that any threads reach. Only what happens under the exclusive lock changes the table. -/
inductive Interned : SpecializationTable → Prop
  | empty : Interned .empty
  | insertLocked {table : SpecializationTable} {type : RawType} {identity : List Char}
      (h : Interned table) (hidentify : identify type = .ok identity) :
      Interned (table.insertLocked identity type).2

structure SpecializationTable.Sound (table : SpecializationTable) : Prop where
  entry : ∀ index entry, table.entries[index]? = some entry →
    entry.id = index + 1 ∧ entry.identity = renderIdentity entry.type
  named : ∀ identity id, table.byIdentity.lookup identity = some id ↔
    ∃ entry ∈ table.entries, entry.identity = identity ∧ entry.id = id

theorem empty_sound : SpecializationTable.empty.Sound := by
  constructor
  · intro index entry h
    cases h
  · intro identity id
    constructor
    · intro h
      cases h
    · rintro ⟨entry, hmem, _⟩
      cases hmem

variable {type : RawType} {identity : List Char}

theorem identify_eq (h : identify type = .ok identity) : identity = renderIdentity type := by
  unfold identify at h
  dsimp only at h
  split at h
  · cases h
  split at h
  · cases h
  · cases h
    rfl

section Sound

variable {table : SpecializationTable} {found : InternResult}

/-- What is found under an identity is the entry that has it. -/
theorem SpecializationTable.Sound.lookup_eq (h : table.Sound) (hfound : table.lookup identity = some found) :
    ∃ entry ∈ table.entries, entry.identity = identity ∧ found = ⟨some entry, [], false⟩ := by
  unfold SpecializationTable.lookup at hfound
  split at hfound
  · next id hid =>
    obtain ⟨entry, hmem, hidentity, rfl⟩ := (h.named identity id).mp hid
    obtain ⟨index, hindex⟩ := List.mem_iff_getElem?.mp hmem
    refine ⟨entry, hmem, hidentity, ?_⟩
    rw [← Option.some.inj hfound, (h.entry index entry hindex).1, Nat.add_sub_cancel, hindex]
  · cases hfound

theorem SpecializationTable.Sound.lookup_none (h : table.Sound)
    (hnone : table.lookup identity = none) : ∀ entry ∈ table.entries, entry.identity ≠ identity := by
  unfold SpecializationTable.lookup at hnone
  split at hnone
  · cases hnone
  · next hid =>
    intro entry hmem heq
    rw [(h.named identity entry.id).mpr ⟨entry, hmem, heq, rfl⟩] at hid
    cases hid

theorem SpecializationTable.Sound.insertLocked (h : table.Sound) (type : RawType) :
    (table.insertLocked (renderIdentity type) type).2.Sound := by
  unfold SpecializationTable.insertLocked
  split
  · exact h
  · next hnone =>
    have hnew := h.lookup_none hnone
    constructor
    · intro index entry hindex
      by_cases hlt : index < table.entries.length
      · rw [List.getElem?_append_left hlt] at hindex
        exact h.entry index entry hindex
      · rw [List.getElem?_append_right (by omega)] at hindex
        have hzero : index - table.entries.length = 0 := by
          have := (List.getElem?_eq_some_iff.mp hindex).1
          rw [List.length_singleton] at this
          omega
        rw [hzero] at hindex
        obtain rfl := Option.some.inj hindex
        refine ⟨?_, rfl⟩
        show table.entries.length + 1 = index + 1
        omega
    · intro identity id
      show List.lookup identity ((renderIdentity type, table.entries.length + 1) :: _) = some id ↔
        ∃ entry ∈ table.entries ++ [_], entry.identity = identity ∧ entry.id = id
      rw [List.lookup_cons]
      constructor
      · intro hid
        split at hid
        · next heq =>
          refine ⟨_, List.mem_append_right _ (List.mem_singleton.mpr rfl), ?_, Option.some.inj hid⟩
          exact (beq_iff_eq.mp heq).symm
        · obtain ⟨entry, hmem, hboth⟩ := (h.named identity id).mp hid
          exact ⟨entry, List.mem_append_left _ hmem, hboth⟩
      · rintro ⟨entry, hmem, hidentity, hid⟩
        rcases List.mem_append.mp hmem with hold | hlast
        · have hne : (identity == renderIdentity type) = false := by
            rw [beq_eq_false_iff_ne]
            rintro rfl
            exact hnew entry hold hidentity
          rw [hne]
          exact (h.named identity id).mpr ⟨entry, hold, hidentity, hid⟩
        · obtain rfl := List.mem_singleton.mp hlast
          have heq : (identity == renderIdentity type) = true := beq_iff_eq.mpr hidentity.symm
          rw [heq]
          exact congrArg some hid

theorem Interned.sound (h : Interned table) : table.Sound := by
  induction h with
  | empty => exact empty_sound
  | insertLocked _ hidentify ih =>
      rw [identify_eq hidentify]
      exact ih.insertLocked _

/-- The numbers are dense from the first. -/
theorem SpecializationTable.Sound.ids (h : table.Sound) :
    table.entries.map Specialization.id = List.range' 1 table.entries.length := by
  apply List.ext_getElem?
  intro index
  rw [List.getElem?_map]
  by_cases hlt : index < table.entries.length
  · rw [List.getElem?_eq_getElem hlt, List.getElem?_range' hlt, Option.map_some,
      (h.entry index _ (List.getElem?_eq_getElem hlt)).1]
    congr 1
    omega
  · rw [List.getElem?_eq_none (by omega), List.getElem?_eq_none (by rw [List.length_range']; omega)]
    rfl

/-- Entries of one type are one entry. -/
theorem SpecializationTable.Sound.eq_of_type (h : table.Sound) {entry other : Specialization}
    (hentry : entry ∈ table.entries) (hother : other ∈ table.entries)
    (htype : entry.type.used = other.type.used) : entry = other := by
  obtain ⟨index, hindex⟩ := List.mem_iff_getElem?.mp hentry
  obtain ⟨index', hindex'⟩ := List.mem_iff_getElem?.mp hother
  obtain ⟨hid, hidentity⟩ := h.entry index entry hindex
  obtain ⟨hid', hidentity'⟩ := h.entry index' other hindex'
  have hsame : entry.identity = other.identity := by
    rw [hidentity, hidentity', renderIdentity_iff]
    exact htype
  have hlookup := (h.named entry.identity entry.id).mpr ⟨entry, hentry, rfl, rfl⟩
  have hlookup' := (h.named entry.identity other.id).mpr ⟨other, hother, hsame.symm, rfl⟩
  rw [hlookup] at hlookup'
  have heq := Option.some.inj hlookup'
  obtain rfl : index = index' := by omega
  rw [hindex] at hindex'
  exact Option.some.inj hindex'

/-- A look that finds something returns the entry of the type. -/
theorem SpecializationTable.Sound.lookup_type (h : table.Sound)
    (hfound : table.lookup (renderIdentity type) = some found) :
    ∃ entry ∈ table.entries, found.specialization = some entry ∧ entry.type.used = type.used := by
  obtain ⟨entry, hmem, hidentity, rfl⟩ := h.lookup_eq hfound
  obtain ⟨index, hindex⟩ := List.mem_iff_getElem?.mp hmem
  refine ⟨entry, hmem, rfl, ?_⟩
  rw [← renderIdentity_iff, ← (h.entry index entry hindex).2]
  exact hidentity

/-- Under the exclusive lock the call always returns the entry of the type. -/
theorem SpecializationTable.Sound.insertLocked_type (h : table.Sound) (type : RawType) :
    ∃ entry ∈ (table.insertLocked (renderIdentity type) type).2.entries,
      (table.insertLocked (renderIdentity type) type).1.specialization = some entry ∧
        entry.type.used = type.used := by
  unfold SpecializationTable.insertLocked
  split
  · next found hfound => exact h.lookup_type hfound
  · exact ⟨_, List.mem_append_right _ (List.mem_singleton.mpr rfl), rfl, rfl⟩

end Sound

/-! ## The two compilers -/

def TypeKind.ofScalar : ScalarKind → TypeKind
  | .unit => .unit
  | .bool => .bool
  | .character => .character
  | .int8 => .int8
  | .int16 => .int16
  | .int32 => .int32
  | .int64 => .int64
  | .int128 => .int128
  | .uint8 => .uint8
  | .uint16 => .uint16
  | .uint32 => .uint32
  | .uint64 => .uint64
  | .uint128 => .uint128
  | .float16 => .float16
  | .float32 => .float32
  | .float64 => .float64
  | .float128 => .float128
  | .string => .string

def IntegerLiteral.ofInt (value : Int) : IntegerLiteral := ⟨value < 0, integerMagnitude value.natAbs⟩

def noSymbol : SymbolName := ⟨0, ""⟩

def RawValue.ofCore : TemplateValue → RawValue
  | .integerTemplateValue value => ⟨.integer, .ofInt value, false, noSymbol⟩
  | .booleanTemplateValue value => ⟨.boolean, ⟨false, []⟩, value, noSymbol⟩
  | .characterTemplateValue scalar => ⟨.character, .ofInt scalar, false, noSymbol⟩
  | .templateValueParameter name =>
      ⟨.parameter, ⟨false, []⟩, false, ⟨name.resolvedSymbol.toNat, name.resolvedSpelling⟩⟩

def noValue : RawValue := ⟨.integer, ⟨false, []⟩, false, noSymbol⟩

mutual

/-- The record that the native reader makes of a Core type, as `NativeType.ofCore` has it. -/
def RawType.ofCore : Ty → RawType
  | .namedType name arguments =>
      match scalarKinds.lookup (coreTypeSpelling (.namedType name arguments)) with
      | some kind => .mk (.ofScalar kind) [] [] [] noSymbol
      | none => .mk .named name [] (RawArgument.ofCoreMany arguments) noSymbol
  | .functionType parameters result =>
      .mk .function [] (RawType.ofCoreMany parameters ++ [RawType.ofCore result]) [] noSymbol
  | .typeVariable name =>
      .mk .typeVariable [] [] [] ⟨name.resolvedSymbol.toNat, name.resolvedSpelling⟩
  | .errorType => .mk .unit [] [] [] noSymbol

def RawType.ofCoreMany : List Ty → List RawType
  | [] => []
  | parameter :: remaining => RawType.ofCore parameter :: RawType.ofCoreMany remaining

def RawArgument.ofCoreMany : List TemplateArgument → List RawArgument
  | [] => []
  | .typeTemplateArgument nested :: remaining =>
      .mk .type (some (RawType.ofCore nested)) noValue :: RawArgument.ofCoreMany remaining
  | .valueTemplateArgument value :: remaining =>
      .mk .value none (RawValue.ofCore value) :: RawArgument.ofCoreMany remaining

end

mutual

/-- Nothing of the type is open or unresolved, so that it can cross to the native compiler as a concrete
type. -/
def crosses : Ty → Bool
  | .namedType _ arguments => argumentsCross arguments
  | .functionType parameters result => parametersCross parameters && crosses result
  | .typeVariable _ => false
  | .errorType => false

def parametersCross : List Ty → Bool
  | [] => true
  | parameter :: remaining => crosses parameter && parametersCross remaining

def argumentsCross : List TemplateArgument → Bool
  | [] => true
  | .typeTemplateArgument nested :: remaining => crosses nested && argumentsCross remaining
  | .valueTemplateArgument (.templateValueParameter _) :: _ => false
  | .valueTemplateArgument _ :: remaining => argumentsCross remaining

end

theorem TypeKind.ofScalar_inj {a b : ScalarKind} (h : ofScalar a = ofScalar b) : a = b := by
  cases a <;> cases b <;> first | rfl | cases h

theorem TypeKind.ofScalar_ne (kind : ScalarKind) : ofScalar kind ≠ .named ∧ ofScalar kind ≠ .function := by
  cases kind <;> decide

/-- Every scalar has one spelling. -/
theorem eq_of_scalarKind {a b : Ty} {kind : ScalarKind}
    (ha : scalarKinds.lookup (coreTypeSpelling a) = some kind)
    (hb : scalarKinds.lookup (coreTypeSpelling b) = some kind) : a = b := by
  have hrow : ∀ {spelling : String}, scalarKinds.lookup spelling = some kind →
      (spelling, kind) ∈ scalarKinds := by
    intro spelling hlookup
    obtain ⟨front, back, heq, _⟩ := List.lookup_eq_some_iff.mp hlookup
    rw [heq]
    exact List.mem_append_right _ List.mem_cons_self
  have hone : ∀ row ∈ scalarKinds, ∀ row' ∈ scalarKinds, row.2 = row'.2 → row.1 = row'.1 := by decide
  have hspelled : ∀ row ∈ scalarKinds, row.1 ≠ "" := by decide
  have hspelling := hone _ (hrow ha) _ (hrow hb) rfl
  have hne := hspelled _ (hrow hb)
  rw [(coreTypeSpelling_eq hne).mp hspelling, ← (coreTypeSpelling_eq hne).mp rfl]

theorem IntegerLiteral.ofInt_inj {a b : Int} (h : ofInt a = ofInt b) : a = b := by
  unfold ofInt at h
  obtain ⟨hsign, hmagnitude⟩ := IntegerLiteral.mk.inj h
  have ha := integerMagnitude_value a.natAbs
  rw [hmagnitude, integerMagnitude_value] at ha
  by_cases hneg : a < 0
  · have : b < 0 := by simpa [hneg] using hsign
    omega
  · have : ¬ b < 0 := by simpa [hneg] using hsign
    omega

mutual

theorem RawType.ofCore_inj : ∀ a b : Ty, crosses a = true → crosses b = true →
    RawType.ofCore a = RawType.ofCore b → a = b
  | .namedType name arguments, .namedType name' arguments', ha, hb, h => by
      rw [RawType.ofCore, RawType.ofCore] at h
      split at h
      · next kind hkind =>
        split at h
        · next kind' hkind' =>
          obtain rfl := TypeKind.ofScalar_inj (RawType.mk.inj h).1
          exact eq_of_scalarKind hkind hkind'
        · exact absurd (RawType.mk.inj h).1 (TypeKind.ofScalar_ne kind).1
      · split at h
        · next kind' _ => exact absurd (RawType.mk.inj h).1.symm (TypeKind.ofScalar_ne kind').1
        · obtain ⟨_, rfl, _, harguments, _⟩ := RawType.mk.inj h
          rw [RawArgument.ofCoreMany_inj arguments arguments' ha hb harguments]
  | .namedType name arguments, .functionType parameters result, ha, hb, h => by
      rw [RawType.ofCore, RawType.ofCore] at h
      split at h
      · next kind _ => exact absurd (RawType.mk.inj h).1 (TypeKind.ofScalar_ne kind).2
      · cases h
  | .functionType parameters result, .namedType name arguments, ha, hb, h => by
      rw [RawType.ofCore, RawType.ofCore] at h
      split at h
      · next kind _ => exact absurd (RawType.mk.inj h).1.symm (TypeKind.ofScalar_ne kind).2
      · cases h
  | .functionType parameters result, .functionType parameters' result', ha, hb, h => by
      rw [crosses, Bool.and_eq_true] at ha hb
      rw [RawType.ofCore, RawType.ofCore] at h
      obtain ⟨_, _, hcomponents, _⟩ := RawType.mk.inj h
      obtain ⟨hparameters, hresult⟩ := List.append_inj' hcomponents rfl
      rw [RawType.ofCoreMany_inj parameters parameters' ha.1 hb.1 hparameters,
        RawType.ofCore_inj result result' ha.2 hb.2 (List.cons.inj hresult).1]

theorem RawType.ofCoreMany_inj : ∀ as bs : List Ty, parametersCross as = true → parametersCross bs = true →
    RawType.ofCoreMany as = RawType.ofCoreMany bs → as = bs
  | [], [], _, _, _ => rfl
  | [], _ :: _, _, _, h => by cases h
  | _ :: _, [], _, _, h => by cases h
  | a :: as, b :: bs, ha, hb, h => by
      rw [parametersCross, Bool.and_eq_true] at ha hb
      rw [RawType.ofCoreMany, RawType.ofCoreMany] at h
      rw [RawType.ofCore_inj a b ha.1 hb.1 (List.cons.inj h).1,
        RawType.ofCoreMany_inj as bs ha.2 hb.2 (List.cons.inj h).2]

theorem RawArgument.ofCoreMany_inj : ∀ as bs : List TemplateArgument, argumentsCross as = true →
    argumentsCross bs = true → RawArgument.ofCoreMany as = RawArgument.ofCoreMany bs → as = bs
  | [], [], _, _, _ => rfl
  | [], .typeTemplateArgument _ :: _, _, _, h => by cases h
  | [], .valueTemplateArgument _ :: _, _, _, h => by cases h
  | .typeTemplateArgument _ :: _, [], _, _, h => by cases h
  | .valueTemplateArgument _ :: _, [], _, _, h => by cases h
  | .typeTemplateArgument _ :: _, .valueTemplateArgument _ :: _, _, _, h => by cases h
  | .valueTemplateArgument _ :: _, .typeTemplateArgument _ :: _, _, _, h => by cases h
  | .typeTemplateArgument a :: as, .typeTemplateArgument b :: bs, ha, hb, h => by
      rw [argumentsCross, Bool.and_eq_true] at ha hb
      rw [RawArgument.ofCoreMany, RawArgument.ofCoreMany] at h
      obtain ⟨hhead, htail⟩ := List.cons.inj h
      have htype := Option.some.inj (RawArgument.mk.inj hhead).2.1
      rw [RawType.ofCore_inj a b ha.1 hb.1 htype, RawArgument.ofCoreMany_inj as bs ha.2 hb.2 htail]
  | .valueTemplateArgument a :: as, .valueTemplateArgument b :: bs, ha, hb, h => by
      rw [RawArgument.ofCoreMany, RawArgument.ofCoreMany] at h
      obtain ⟨hhead, htail⟩ := List.cons.inj h
      have hvalue := (RawArgument.mk.inj hhead).2.2
      cases a with
      | templateValueParameter => cases ha
      | integerTemplateValue a =>
          cases b with
          | integerTemplateValue b =>
              rw [IntegerLiteral.ofInt_inj (RawValue.mk.inj hvalue).2.1,
                RawArgument.ofCoreMany_inj as bs ha hb htail]
          | booleanTemplateValue | characterTemplateValue | templateValueParameter => cases hvalue
      | characterTemplateValue a =>
          cases b with
          | characterTemplateValue b =>
              rw [IntegerLiteral.ofInt_inj (RawValue.mk.inj hvalue).2.1,
                RawArgument.ofCoreMany_inj as bs ha hb htail]
          | booleanTemplateValue | integerTemplateValue | templateValueParameter => cases hvalue
      | booleanTemplateValue a =>
          cases b with
          | booleanTemplateValue b =>
              rw [(RawValue.mk.inj hvalue).2.2.1, RawArgument.ofCoreMany_inj as bs ha hb htail]
          | characterTemplateValue | integerTemplateValue | templateValueParameter => cases hvalue

end

/-- The two compilers agree on which types are the same. -/
theorem renderIdentity_iff_renderTemplateIdentity {m m' : Nat} {a b : Ty} {type' : RawType}
    (ha : validateTemplateType m a = []) (hb : validateTemplateType m' b = []) (hcross : crosses a = true)
    (hcross' : crosses b = true) (htype : type.used = RawType.ofCore a) (htype' : type'.used = RawType.ofCore b) :
    renderIdentity type = renderIdentity type' ↔ renderTemplateIdentity a = renderTemplateIdentity b := by
  rw [renderIdentity_iff, htype, htype']
  constructor
  · intro h
    rw [RawType.ofCore_inj a b hcross hcross' h]
  · intro h
    rw [renderTemplateIdentity_injective ha hb h]

/-- Numbered from one without a gap, with one entry for every key. -/
structure Numbered {Entry Key : Type} (entries : List Entry) (id : Entry → Nat) (key : Entry → Key) : Prop where
  dense : entries.map id = List.range' 1 entries.length
  once : (entries.map key).Nodup

theorem Numbered.of_dense {Entry Key : Type} {entries : List Entry} {id : Entry → Nat} {key : Entry → Key}
    (hdense : entries.map id = List.range' 1 entries.length)
    (honce : ∀ entry ∈ entries, ∀ other ∈ entries, key entry = key other → entry = other) :
    Numbered entries id key := by
  refine ⟨hdense, ?_⟩
  have hnodup : entries.Nodup := by
    apply List.Nodup.of_map id
    rw [hdense]
    exact List.nodup_range'
  exact hnodup.map_on honce

/-- An identity is the text of one type, in the frontend and in the native compiler, and both number every
type once and without a gap. -/
theorem templateIdentities_exact :
    (∀ m m' a b, validateTemplateType m a = [] → validateTemplateType m' b = [] →
      renderTemplateIdentity a = renderTemplateIdentity b → a = b) ∧
    (∀ a b, renderIdentity a = renderIdentity b ↔ a.used = b.used) ∧
    (∀ m m' a b type type', validateTemplateType m a = [] → validateTemplateType m' b = [] →
      crosses a = true → crosses b = true → type.used = RawType.ofCore a → type'.used = RawType.ofCore b →
      (renderIdentity type = renderIdentity type' ↔ renderTemplateIdentity a = renderTemplateIdentity b)) ∧
    (∀ catalog, Core.Interned catalog →
      Numbered (specializationSnapshot catalog) Core.Specialization.specializationId
          Core.Specialization.specializationType ∧
        ∀ input entry inserted catalog',
          internSpecialization input catalog = .ok (entry, inserted, catalog') →
            entry.specializationType = input ∧ entry ∈ specializationSnapshot catalog') ∧
    ∀ table, Interned table →
      Numbered table.entries Specialization.id (fun entry => entry.type.used) ∧
        ∀ type identity, identify type = .ok identity →
          (∀ found, table.lookup identity = some found →
            ∃ entry ∈ table.entries, found.specialization = some entry ∧ entry.type.used = type.used) ∧
          ∃ entry ∈ (table.insertLocked identity type).2.entries,
            (table.insertLocked identity type).1.specialization = some entry ∧
              entry.type.used = type.used := by
  refine ⟨?_, ?_, ?_, ?_, ?_⟩
  · intro m m' a b ha hb h
    exact renderTemplateIdentity_injective ha hb h
  · intro a b
    exact renderIdentity_iff
  · intro m m' a b type type' ha hb hcross hcross' htype htype'
    exact renderIdentity_iff_renderTemplateIdentity ha hb hcross hcross' htype htype'
  · intro catalog hcatalog
    have hsound := hcatalog.sound
    constructor
    · apply Numbered.of_dense hsound.snapshot_ids
      intro entry hentry other hother htype
      exact hsound.eq_of_type hentry hother htype
    · intro input entry inserted catalog' hintern
      exact hsound.intern_type hintern
  · intro table htable
    have hsound := htable.sound
    constructor
    · apply Numbered.of_dense hsound.ids
      intro entry hentry other hother htype
      exact hsound.eq_of_type hentry hother htype
    · intro type identity hidentify
      rw [identify_eq hidentify]
      constructor
      · intro found hfound
        exact hsound.lookup_type hfound
      · exact hsound.insertLocked_type type

/-- `System.Box<int>`. -/
def boxOfInt : Ty := .namedType ["System", "Box"] [.typeTemplateArgument intType]

theorem templateIdentities_exact_box :
    (renderIdentity (RawType.ofCore boxOfInt) = renderIdentity (RawType.ofCore boxOfInt) ↔
      renderTemplateIdentity boxOfInt = renderTemplateIdentity boxOfInt) ∧
    ∃ entry inserted catalog', internSpecialization boxOfInt emptyCatalog = .ok (entry, inserted, catalog') ∧
      entry.specializationType = boxOfInt :=
  ⟨templateIdentities_exact.2.2.1 128 128 boxOfInt boxOfInt (RawType.ofCore boxOfInt)
      (RawType.ofCore boxOfInt) (by decide) (by decide) (by decide) (by decide) rfl rfl,
    _, _, _, rfl, ((templateIdentities_exact.2.2.2.1 emptyCatalog .empty).2 boxOfInt _ _ _ rfl).1⟩

/-- The two texts of one type are not the same. -/
theorem identities_differ : ¬ ∀ a type, validateTemplateType 128 a = [] → crosses a = true →
    type.used = RawType.ofCore a → renderIdentity type = renderTemplateIdentity a := by
  intro h
  have hint := h intType (RawType.ofCore intType) (by decide) (by decide) rfl
  revert hint
  decide

end Tala.Native.Template
