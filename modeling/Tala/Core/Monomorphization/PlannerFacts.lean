import Tala.Core.Monomorphization.Planner

/-!
# `Core.Monomorphization.PlannerFacts` — the plan has every template type of the module, once

`PlanningState.Sound` is kept by every step of the queue: what is demanded is a template type of the module,
and the template types next to it are demanded or pending. When the queue is empty nothing is pending, so
the demands are closed under dependencies, and the plan is well formed.
-/

namespace Tala.Core.Monomorphization

open Tala Tala.Core Tala.Library

/-! ## The template types of a module -/

mutual

theorem candidate_of_dependency : ∀ (valueType : Ty) (dependency : Nat × Ty),
    dependency ∈ directTypeDependencies valueType → specializationCandidate dependency.2 = true
  | .namedType _ arguments, dependency, h => candidate_of_argument 0 arguments dependency h
  | .functionType parameters result, dependency, h => by
      rw [directTypeDependencies] at h
      rcases List.mem_append.mp h with hparameter | hresult
      · exact candidate_of_parameter 0 parameters dependency hparameter
      · split at hresult
        · next hcandidate =>
          rw [List.mem_singleton.mp hresult]
          exact hcandidate
        · exact candidate_of_dependency result dependency hresult
  | .typeVariable _, dependency, h => by cases h
  | .errorType, dependency, h => by cases h

theorem candidate_of_argument : ∀ (index : Nat) (arguments : List TemplateArgument) (dependency : Nat × Ty),
    dependency ∈ argumentDependencies index arguments → specializationCandidate dependency.2 = true
  | _, [], dependency, h => by cases h
  | index, .typeTemplateArgument nested :: remaining, dependency, h => by
      rw [argumentDependencies] at h
      rcases List.mem_append.mp h with hnested | hremaining
      · split at hnested
        · next hcandidate =>
          rw [List.mem_singleton.mp hnested]
          exact hcandidate
        · exact candidate_of_dependency nested dependency hnested
      · exact candidate_of_argument (index + 1) remaining dependency hremaining
  | index, .valueTemplateArgument _ :: remaining, dependency, h =>
      candidate_of_argument (index + 1) remaining dependency h

theorem candidate_of_parameter : ∀ (index : Nat) (parameters : List Ty) (dependency : Nat × Ty),
    dependency ∈ parameterDependencies index parameters → specializationCandidate dependency.2 = true
  | _, [], dependency, h => by cases h
  | index, parameter :: remaining, dependency, h => by
      rw [parameterDependencies] at h
      rcases List.mem_append.mp h with hparameter | hremaining
      · split at hparameter
        · next hcandidate =>
          rw [List.mem_singleton.mp hparameter]
          exact hcandidate
        · exact candidate_of_dependency parameter dependency hparameter
      · exact candidate_of_parameter (index + 1) remaining dependency hremaining

end

variable {valueType template : Ty} {coreModule : CoreModule}

theorem self_mem_templateTypes (h : specializationCandidate valueType = true) :
    valueType ∈ templateTypes valueType :=
  (mem_templateTypes valueType valueType).mpr (Or.inl ⟨h, rfl⟩)

theorem candidate_of_outermost (h : template ∈ outermostTemplates valueType) :
    specializationCandidate template = true := by
  unfold outermostTemplates at h
  split at h
  · next hcandidate =>
    rw [List.mem_singleton.mp h]
    exact hcandidate
  · obtain ⟨dependency, hdependency, rfl⟩ := List.mem_map.mp h
    exact candidate_of_dependency valueType dependency hdependency

/-- Every template type of a type is one of an outermost one. -/
theorem mem_templateTypes_iff_outermost :
    template ∈ templateTypes valueType ↔
      ∃ root ∈ outermostTemplates valueType, template ∈ templateTypes root := by
  unfold outermostTemplates
  split
  · simp
  · next hcandidate =>
    rw [mem_templateTypes]
    constructor
    · rintro (⟨hfalse, _⟩ | ⟨dependency, hdependency, hmem⟩)
      · exact absurd hfalse hcandidate
      · exact ⟨dependency.2, List.mem_map_of_mem hdependency, hmem⟩
    · rintro ⟨root, hroot, hmem⟩
      obtain ⟨dependency, hdependency, rfl⟩ := List.mem_map.mp hroot
      exact Or.inr ⟨dependency, hdependency, hmem⟩

/-- The template types are closed under dependencies. -/
theorem dependency_mem_templateTypes (valueType : Ty) {dependency : Nat × Ty}
    (htemplate : template ∈ templateTypes valueType)
    (hdependency : dependency ∈ directTypeDependencies template) : dependency.2 ∈ templateTypes valueType := by
  induction hnodes : typeNodes valueType using Nat.strong_induction_on generalizing valueType with
  | _ nodes ih =>
    rw [mem_templateTypes]
    right
    rcases (mem_templateTypes valueType template).mp htemplate with ⟨_, rfl⟩ | ⟨parent, hparent, hmem⟩
    · exact ⟨dependency, hdependency,
        self_mem_templateTypes (candidate_of_dependency template dependency hdependency)⟩
    · refine ⟨parent, hparent, ih (typeNodes parent.2) ?_ parent.2 hmem rfl⟩
      rw [← hnodes]
      exact typeNodes_dependency hparent

/-- A template type of some type of the module. -/
def Wanted (coreModule : CoreModule) (template : Ty) : Prop :=
  ∃ valueType ∈ moduleTypes coreModule, template ∈ templateTypes valueType

theorem Wanted.dependency (h : Wanted coreModule template)
    {dependency : Nat × Ty} (hdependency : dependency ∈ directTypeDependencies template) :
    Wanted coreModule dependency.2 := by
  obtain ⟨valueType, hmem, htemplate⟩ := h
  exact ⟨valueType, hmem, dependency_mem_templateTypes valueType htemplate hdependency⟩

/-- The occurrences are wanted. -/
theorem wanted_of_occurrence {item : TypeOccurrence}
    (h : item ∈ discoverTypeOccurrences coreModule) : Wanted coreModule item.occurrenceType := by
  obtain ⟨valueType, hmem, houtermost⟩ :=
    (discoverTypeOccurrences_covers coreModule item.occurrenceType).mp (List.mem_map_of_mem h)
  exact ⟨valueType, hmem, mem_templateTypes_iff_outermost.mpr
    ⟨_, houtermost, self_mem_templateTypes (candidate_of_outermost houtermost)⟩⟩

/-- What is closed under dependencies and has the occurrences has all that is wanted. -/
theorem wanted_of_closed {p : Ty → Prop}
    (hroots : ∀ item ∈ discoverTypeOccurrences coreModule, p item.occurrenceType)
    (hclosed : ∀ template, p template → ∀ dependency ∈ directTypeDependencies template, p dependency.2)
    (h : Wanted coreModule template) : p template := by
  have hall : ∀ nodes root, typeNodes root = nodes → p root → ∀ template ∈ templateTypes root, p template := by
    intro nodes
    induction nodes using Nat.strong_induction_on with
    | _ nodes ih =>
      intro root hnodes hroot template hmem
      rcases (mem_templateTypes root template).mp hmem with ⟨_, rfl⟩ | ⟨dependency, hdependency, hinside⟩
      · exact hroot
      · refine ih (typeNodes dependency.2) ?_ dependency.2 rfl (hclosed root hroot dependency hdependency)
          template hinside
        rw [← hnodes]
        exact typeNodes_dependency hdependency
  obtain ⟨valueType, hmem, htemplate⟩ := h
  obtain ⟨root, hroot, hinside⟩ := mem_templateTypes_iff_outermost.mp htemplate
  have hoccurs := (discoverTypeOccurrences_covers coreModule root).mpr ⟨valueType, hmem, hroot⟩
  obtain ⟨item, hitem, rfl⟩ := List.mem_map.mp hoccurs
  exact hall _ item.occurrenceType rfl (hroots item hitem) template hinside

/-! ## The invariant of the queue -/

namespace PlanningState

/-- Some demand is for this type. -/
def Demanded (state : PlanningState) (valueType : Ty) : Prop :=
  ∃ id demand, state.planningDemands.find id = some demand ∧ demand.type = valueType

def Known (state : PlanningState) (valueType : Ty) : Prop :=
  state.Demanded valueType ∨ ∃ pending ∈ state.planningQueue, pending.pendingType = valueType

structure Sound (coreModule : CoreModule) (state : PlanningState) : Prop where
  catalog : state.planningCatalog.Sound
  /-- The demands are the entries of the catalog. -/
  demand : ∀ id demand, state.planningDemands.find id = some demand →
    demand.monomorphizationDemandId = id ∧
      state.planningCatalog.catalogById.find id = some demand.monomorphizationSpecialization ∧
      demand.monomorphizationState = .demandComplete
  entry : ∀ id, (state.planningCatalog.catalogById.find id).isSome = true →
    (state.planningDemands.find id).isSome = true
  identities : ∀ identity, state.planningIdentityIds.find identity
    = (state.planningCatalog.catalogByIdentity.find identity).map Specialization.specializationId
  wanted : ∀ valueType, state.Known valueType → Wanted coreModule valueType
  closed : ∀ valueType, state.Demanded valueType →
    ∀ dependency ∈ directTypeDependencies valueType, state.Known dependency.2
  roots : ∀ item ∈ discoverTypeOccurrences coreModule, state.Known item.occurrenceType

end PlanningState

section Steps

variable {coreModule : CoreModule} {state updated : PlanningState} {limits : MonomorphizationLimits}
  {pending : PendingDemand} {id : Nat} {demand : MonomorphizationDemand}

theorem PlanningState.Sound.demandedEntry (h : state.Sound coreModule)
    (hfind : state.planningDemands.find id = some demand) :
    validateTemplateType 128 demand.type = [] ∧
      demand.monomorphizationSpecialization.specializationIdentity = renderTemplateIdentity demand.type := by
  obtain ⟨_, hentry, _⟩ := h.demand id demand hfind
  obtain ⟨_, hvalid, _, hidentity⟩ := h.catalog.entry id _ hentry
  exact ⟨hvalid, hidentity⟩

/-- An identity is found under the demand for its type. -/
theorem PlanningState.Sound.find_identity (h : state.Sound coreModule)
    (hvalid : validateTemplateType 128 valueType = [])
    (hid : state.planningIdentityIds.find (renderTemplateIdentity valueType) = some id) :
    ∃ demand, state.planningDemands.find id = some demand ∧ demand.type = valueType := by
  rw [h.identities] at hid
  obtain ⟨entry, hentry, rfl⟩ := Option.map_eq_some_iff.mp hid
  obtain ⟨hidentity, hthere⟩ := (h.catalog.named _ entry).mp hentry
  obtain ⟨demand, hdemand⟩ := Option.isSome_iff_exists.mp
    (h.entry entry.specializationId (by rw [hthere]; rfl))
  refine ⟨demand, hdemand, ?_⟩
  obtain ⟨_, hsame, _⟩ := h.demand _ demand hdemand
  rw [hthere] at hsame
  have hspecialization := Option.some.inj hsame
  obtain ⟨hvalid', hrender⟩ := h.demandedEntry hdemand
  apply renderTemplateIdentity_injective hvalid' hvalid
  rw [← hrender, ← hspecialization, hidentity]

/-- A demanded type is found under its identity. -/
theorem PlanningState.Sound.identity_of_demanded (h : state.Sound coreModule)
    (hfind : state.planningDemands.find id = some demand) :
    state.planningIdentityIds.find (renderTemplateIdentity demand.type) = some id := by
  obtain ⟨_, hentry, _⟩ := h.demand id demand hfind
  obtain ⟨hid, _, _, hidentity⟩ := h.catalog.entry id _ hentry
  have hnamed : state.planningCatalog.catalogByIdentity.find (renderTemplateIdentity demand.type)
      = some demand.monomorphizationSpecialization := by
    apply (h.catalog.named _ _).mpr
    refine ⟨hidentity, ?_⟩
    rw [hid]
    exact hentry
  rw [h.identities, hnamed]
  exact congrArg some hid

/-- The head of the queue is accepted by a demand that is there already. -/
theorem PlanningState.Sound.attached (h : PlanningState.Sound coreModule { state with
      planningQueue := pending :: state.planningQueue })
    (hcatalog : updated.planningCatalog = state.planningCatalog)
    (hidentities : updated.planningIdentityIds = state.planningIdentityIds)
    (hqueue : updated.planningQueue = state.planningQueue)
    (hdemands : ∀ id, (∀ demand, updated.planningDemands.find id = some demand →
        ∃ old, state.planningDemands.find id = some old ∧
          old.monomorphizationDemandId = demand.monomorphizationDemandId ∧
          old.monomorphizationSpecialization = demand.monomorphizationSpecialization ∧
          old.monomorphizationState = demand.monomorphizationState) ∧
      ((state.planningDemands.find id).isSome = true → (updated.planningDemands.find id).isSome = true))
    (hpending : state.Demanded pending.pendingType) : updated.Sound coreModule := by
  have hdemanded : ∀ valueType, updated.Demanded valueType ↔ state.Demanded valueType := by
    intro valueType
    constructor
    · rintro ⟨id, demand, hfind, rfl⟩
      obtain ⟨old, hold, _, hspecialization, _⟩ := (hdemands id).1 demand hfind
      refine ⟨id, old, hold, ?_⟩
      unfold MonomorphizationDemand.type
      rw [hspecialization]
    · rintro ⟨id, old, hold, rfl⟩
      obtain ⟨demand, hfind⟩ := Option.isSome_iff_exists.mp ((hdemands id).2 (by rw [hold]; rfl))
      obtain ⟨old', hold', _, hspecialization, _⟩ := (hdemands id).1 demand hfind
      rw [hold] at hold'
      obtain rfl := Option.some.inj hold'
      refine ⟨id, demand, hfind, ?_⟩
      unfold MonomorphizationDemand.type
      rw [hspecialization]
  have hknown : ∀ valueType, updated.Known valueType ↔
      PlanningState.Known { state with planningQueue := pending :: state.planningQueue } valueType := by
    intro valueType
    unfold PlanningState.Known
    rw [hdemanded, hqueue]
    constructor
    · rintro (hdemand | ⟨item, hitem, rfl⟩)
      · exact Or.inl hdemand
      · exact Or.inr ⟨item, List.mem_cons_of_mem _ hitem, rfl⟩
    · rintro (hdemand | ⟨item, hitem, rfl⟩)
      · exact Or.inl hdemand
      · rcases List.mem_cons.mp hitem with rfl | hmem
        · exact Or.inl hpending
        · exact Or.inr ⟨item, hmem, rfl⟩
  constructor
  · rw [hcatalog]
    exact h.catalog
  · intro id demand hfind
    obtain ⟨old, hold, hid, hspecialization, hstate⟩ := (hdemands id).1 demand hfind
    obtain ⟨hid', hentry, hcomplete⟩ := h.demand id old hold
    rw [hcatalog, ← hspecialization, ← hid, ← hstate]
    exact ⟨hid', hentry, hcomplete⟩
  · intro id hentry
    rw [hcatalog] at hentry
    exact (hdemands id).2 (h.entry id hentry)
  · intro identity
    rw [hidentities, hcatalog]
    exact h.identities identity
  · intro valueType hthere
    exact h.wanted valueType ((hknown valueType).mp hthere)
  · intro valueType hthere dependency hdependency
    rw [hknown]
    exact h.closed valueType ((hdemanded valueType).mp hthere) dependency hdependency
  · intro item hitem
    rw [hknown]
    exact h.roots item hitem

/-- The head of the queue becomes a demand of its own. -/
theorem PlanningState.Sound.created (h : PlanningState.Sound coreModule { state with
      planningQueue := pending :: state.planningQueue })
    {catalog : SpecializationCatalog} {specialization : Specialization}
    (hintern : internSpecialization pending.pendingType state.planningCatalog
      = .ok (specialization, true, catalog)) (demand : MonomorphizationDemand)
    (hid : demand.monomorphizationDemandId = specialization.specializationId)
    (hspecialization : demand.monomorphizationSpecialization = specialization)
    (hcomplete : demand.monomorphizationState = .demandComplete) (hcatalog : updated.planningCatalog = catalog)
    (hidentities : updated.planningIdentityIds = state.planningIdentityIds.insert
      (renderTemplateIdentity pending.pendingType) specialization.specializationId)
    (hdemands : ∀ id, updated.planningDemands.find id
      = if specialization.specializationId = id then some demand else state.planningDemands.find id)
    (hqueue : ∀ item, item ∈ updated.planningQueue.map PendingDemand.pendingType ↔
      item ∈ state.planningQueue.map PendingDemand.pendingType ∨
        item ∈ (directTypeDependencies pending.pendingType).map Prod.snd) : updated.Sound coreModule := by
  obtain ⟨hvalid, hclosed, ⟨hfalse, _⟩ | ⟨_, hfind, rfl, rfl⟩⟩ := internSpecialization_cases hintern
  · cases hfalse
  have hold : ∀ id, state.planningDemands.find id = none ∨ id ≠ state.planningCatalog.catalogNextId := by
    intro id
    by_cases heq : id = state.planningCatalog.catalogNextId
    · left
      rw [Option.eq_none_iff_forall_not_mem]
      intro other hother
      obtain ⟨_, hentry, _⟩ := h.demand id other hother
      have hlt := ((h.catalog.dense id).mp (by
        show (state.planningCatalog.catalogById.find id).isSome = true
        rw [show state.planningCatalog.catalogById.find id = _ from hentry]
        rfl)).2
      exact absurd hlt (by
        rw [heq]
        exact Nat.lt_irrefl _)
    · exact Or.inr heq
  have hdemanded : ∀ valueType, updated.Demanded valueType ↔
      state.Demanded valueType ∨ valueType = pending.pendingType := by
    intro valueType
    constructor
    · rintro ⟨id, other, hother, rfl⟩
      rw [hdemands] at hother
      split at hother
      · obtain rfl := Option.some.inj hother
        right
        unfold MonomorphizationDemand.type
        rw [hspecialization]
      · exact Or.inl ⟨id, other, hother, rfl⟩
    · rintro (⟨id, other, hother, rfl⟩ | rfl)
      · refine ⟨id, other, ?_, rfl⟩
        rw [hdemands, if_neg]
        · exact hother
        · rintro rfl
          rcases hold _ with hnone | hne
          · rw [hnone] at hother
            cases hother
          · exact hne rfl
      · refine ⟨state.planningCatalog.catalogNextId, demand, ?_, ?_⟩
        · rw [hdemands, if_pos rfl]
        · unfold MonomorphizationDemand.type
          rw [hspecialization]
  have hknown : ∀ valueType, updated.Known valueType ↔
      PlanningState.Known { state with planningQueue := pending :: state.planningQueue } valueType ∨
        valueType ∈ (directTypeDependencies pending.pendingType).map Prod.snd := by
    intro valueType
    have hitems : (∃ item ∈ updated.planningQueue, item.pendingType = valueType) ↔
        valueType ∈ updated.planningQueue.map PendingDemand.pendingType := List.mem_map.symm
    have hitems' : (∃ item ∈ pending :: state.planningQueue, item.pendingType = valueType) ↔
        pending.pendingType = valueType ∨ valueType ∈ state.planningQueue.map PendingDemand.pendingType := by
      rw [← List.mem_map, List.map_cons, List.mem_cons, eq_comm]
    show updated.Demanded valueType ∨ _ ↔ (state.Demanded valueType ∨ _) ∨ _
    rw [hdemanded, hitems, hitems', hqueue]
    grind
  constructor
  · rw [hcatalog]
    exact h.catalog.intern hintern
  · intro id other hother
    rw [hdemands] at hother
    rw [hcatalog]
    show _ ∧ SortedMap.find (SortedMap.insert _ _ _) id = _ ∧ _
    rw [SortedMap.find_insert]
    split at hother
    · next heq =>
      obtain rfl := Option.some.inj hother
      rw [if_pos heq, hspecialization, hid]
      exact ⟨heq, rfl, hcomplete⟩
    · next hne =>
      rw [if_neg hne]
      exact h.demand id other hother
  · intro id hentry
    rw [hcatalog] at hentry
    change (SortedMap.find (SortedMap.insert _ _ _) id).isSome = true at hentry
    rw [SortedMap.find_insert] at hentry
    rw [hdemands]
    split
    · rfl
    · next hne =>
      rw [if_neg hne] at hentry
      exact h.entry id hentry
  · intro identity
    rw [hidentities, hcatalog]
    show SortedMap.find (SortedMap.insert _ _ _) identity = Option.map _ (SortedMap.find (SortedMap.insert _ _ _) identity)
    rw [SortedMap.find_insert, SortedMap.find_insert]
    split
    · rfl
    · exact h.identities identity
  · intro valueType hthere
    rcases (hknown valueType).mp hthere with hbefore | hdependency
    · exact h.wanted valueType hbefore
    · obtain ⟨dependency, hmem, rfl⟩ := List.mem_map.mp hdependency
      exact Wanted.dependency (h.wanted pending.pendingType (Or.inr ⟨pending, List.mem_cons_self, rfl⟩)) hmem
  · intro valueType hthere dependency hdependency
    rw [hknown]
    rcases (hdemanded valueType).mp hthere with hbefore | rfl
    · exact Or.inl (h.closed valueType hbefore dependency hdependency)
    · exact Or.inr (List.mem_map_of_mem hdependency)
  · intro item hitem
    rw [hknown]
    exact Or.inl (h.roots item hitem)

end Steps

end Tala.Core.Monomorphization
