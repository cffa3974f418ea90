import Mathlib.Data.List.Induction
import Tala.Core.Monomorphization.PlannerFacts

/-!
# `Core.Monomorphization.PlannerCorrect` — what `planCoreMonomorphizationWith` returns

The run lemma of the queue (`drainQueue_sound`), and from its last state the plan: `finishPlan` puts the edges
in, and the plan it makes is `WellFormed`. The checks in the middle of the planner that would report a fault
of the planner itself never do.
-/

namespace Tala.Core.Monomorphization

open Tala Tala.Core Tala.Library

/-! ## The steps of the queue -/

/-- The errors that would be a fault of the planner. -/
def MonomorphizationError.Internal : MonomorphizationError → Prop
  | .internalMissingDemand _ => True
  | .invalidCompletedDemandGraph _ => True
  | _ => False

/-- What a step of the planner may end in. -/
def SoundOutcome (coreModule : CoreModule) : Except MonomorphizationError PlanningState → Prop
  | .ok updated => updated.Sound coreModule
  | .error failure => ¬ failure.Internal

variable {pending : PendingDemand} {failure : MonomorphizationError}

theorem mapSpecializationError_error {α : Type} {result : Except SpecializationError α}
    (h : mapSpecializationError pending result = .error failure) : ¬ failure.Internal := by
  unfold mapSpecializationError at h
  split at h
  · cases h
    exact id
  · cases h

theorem validateLimits_error {limits : MonomorphizationLimits}
    (h : validateLimits limits = .error failure) : ¬ failure.Internal := by
  unfold validateLimits at h
  split at h
  · cases h
    exact id
  split at h
  · cases h
    exact id
  split at h
  · cases h
    exact id
  · cases h

theorem mapSpecializationError_ok {α : Type} {result : Except SpecializationError α} {value : α}
    (h : mapSpecializationError pending result = .ok value) : result = .ok value := by
  unfold mapSpecializationError at h
  split at h
  · cases h
  · cases h
    rfl

section Steps

variable {coreModule : CoreModule} {state : PlanningState} {limits : MonomorphizationLimits}
  {pending : PendingDemand} {demand : MonomorphizationDemand} {demandId : Nat}

theorem attachExistingOrigin_sound (h : PlanningState.Sound coreModule { state with
      planningQueue := pending :: state.planningQueue })
    (hfind : state.planningDemands.find demandId = some demand) (htype : demand.type = pending.pendingType) :
    SoundOutcome coreModule (attachExistingOrigin limits demandId pending state) := by
  have hdemanded : state.Demanded pending.pendingType := ⟨demandId, demand, hfind, htype⟩
  unfold attachExistingOrigin
  rw [hfind]
  dsimp only
  split
  · show PlanningState.Sound coreModule _
    refine PlanningState.Sound.attached h ?_ ?_ ?_ ?_ hdemanded
    · rfl
    · rfl
    · rfl
    intro id
    exact ⟨fun other hother => ⟨other, hother, rfl, rfl, rfl⟩, fun hthere => hthere⟩
  split
  · exact id
  · show PlanningState.Sound coreModule _
    refine PlanningState.Sound.attached h ?_ ?_ ?_ ?_ hdemanded
    · rfl
    · rfl
    · rfl
    intro id
    constructor
    · intro other hother
      change SortedMap.find (SortedMap.insert _ _ _) id = some other at hother
      rw [SortedMap.find_insert] at hother
      split at hother
      · next heq =>
        subst heq
        cases hother
        exact ⟨demand, hfind, rfl, rfl, rfl⟩
      · exact ⟨other, hother, rfl, rfl, rfl⟩
    · intro hthere
      show (SortedMap.find (SortedMap.insert _ _ _) id).isSome = true
      rw [SortedMap.find_insert]
      split
      · rfl
      · exact hthere

/-- The demand that has just been put in is marked complete. -/
theorem completeDemandDependencies_eq (hfind : state.planningDemands.find demandId = some demand) :
    completeDemandDependencies demandId state =
      { state with
        planningDemands := state.planningDemands.insert demandId
          { demand with monomorphizationState := .demandComplete } } := by
  unfold completeDemandDependencies
  rw [hfind]

theorem createDemand_sound (h : PlanningState.Sound coreModule { state with
      planningQueue := pending :: state.planningQueue })
    (hnone : state.planningIdentityIds.find (renderTemplateIdentity pending.pendingType) = none) :
    SoundOutcome coreModule (createDemand limits (renderTemplateIdentity pending.pendingType)
      pending.pendingType pending state) := by
  unfold createDemand
  split
  · exact id
  split
  · exact id
  split
  · next failure hintern => exact mapSpecializationError_error hintern
  · next specialization inserted catalog hmapped =>
    have hintern := mapSpecializationError_ok hmapped
    -- a known identity would have been found before
    have hinserted : inserted = true := by
      obtain ⟨_, _, ⟨_, _, hthere⟩ | ⟨htrue, _⟩⟩ := internSpecialization_cases hintern
      · have hid := h.identities (renderTemplateIdentity pending.pendingType)
        change state.planningIdentityIds.find _ = Option.map _ (state.planningCatalog.catalogByIdentity.find _)
          at hid
        rw [hthere, hnone] at hid
        cases hid
      · exact htrue
    subst hinserted
    rw [if_neg (by simp)]
    dsimp only
    rw [completeDemandDependencies_eq (by rw [SortedMap.find_insert, if_pos rfl])]
    show PlanningState.Sound coreModule _
    refine PlanningState.Sound.created h hintern ⟨specialization.specializationId, specialization,
      [pending.pendingOrigin], [], pending.pendingDepth, .demandComplete⟩ ?_ ?_ ?_ ?_ ?_ ?_ ?_
    · rfl
    · rfl
    · rfl
    · rfl
    · rfl
    · intro id
      show SortedMap.find (SortedMap.insert (SortedMap.insert _ _ _) _ _) id = _
      rw [SortedMap.find_insert, SortedMap.find_insert]
      split <;> rfl
    · intro item
      show item ∈ (state.planningQueue ++ _).map PendingDemand.pendingType ↔ _
      rw [List.map_append, List.mem_append, List.map_map]
      exact Iff.rfl

/-- A step keeps the invariant or ends with an error of the input. -/
theorem acceptDemand_sound (h : PlanningState.Sound coreModule { state with
      planningQueue := pending :: state.planningQueue }) :
    SoundOutcome coreModule (acceptDemand limits pending state) := by
  unfold acceptDemand
  split
  · exact id
  split
  · next failure hprepare => exact mapSpecializationError_error hprepare
  · next concrete hprepare =>
    obtain ⟨rfl, hvalid, _⟩ := prepared_eq hprepare
    dsimp only
    split
    · next demandId hid =>
      obtain ⟨demand, hfind, htype⟩ := h.find_identity hvalid hid
      exact attachExistingOrigin_sound h hfind htype
    · next hnone => exact createDemand_sound h hnone

theorem initialState_sound : (initialState (discoverTypeOccurrences coreModule)).Sound coreModule := by
  have hknown : ∀ valueType, (initialState (discoverTypeOccurrences coreModule)).Known valueType ↔
      ∃ item ∈ discoverTypeOccurrences coreModule, item.occurrenceType = valueType := by
    intro valueType
    constructor
    · rintro (⟨id, demand, hfind, _⟩ | ⟨pending, hpending, rfl⟩)
      · cases hfind
      · obtain ⟨item, hitem, rfl⟩ := List.mem_map.mp hpending
        exact ⟨item, hitem, rfl⟩
    · rintro ⟨item, hitem, rfl⟩
      exact Or.inr ⟨_, List.mem_map_of_mem hitem, rfl⟩
  constructor
  · exact emptyCatalog_sound
  · intro id demand hfind
    cases hfind
  · intro id hentry
    cases hentry
  · intro identity
    rfl
  · intro valueType hthere
    obtain ⟨item, hitem, rfl⟩ := (hknown valueType).mp hthere
    exact wanted_of_occurrence hitem
  · rintro valueType ⟨id, demand, hfind, _⟩
    cases hfind
  · intro item hitem
    exact (hknown _).mpr ⟨item, hitem, rfl⟩

/-- The run of the queue: at its end nothing is pending. -/
theorem drainQueue_sound (h : state.Sound coreModule) :
    SoundOutcome coreModule (drainQueue limits state) ∧
      ∀ completed, drainQueue limits state = .ok completed → completed.planningQueue = [] := by
  induction hnodes : queueNodes state.planningQueue using Nat.strong_induction_on generalizing state with
  | _ nodes ih =>
    rw [drainQueue]
    split
    · next hqueue =>
      refine ⟨h, ?_⟩
      intro completed hcompleted
      cases hcompleted
      exact hqueue
    · next pending remaining hqueue =>
      have hstep : SoundOutcome coreModule
          (acceptDemand limits pending { state with planningQueue := remaining }) := by
        apply acceptDemand_sound
        show PlanningState.Sound coreModule { state with planningQueue := pending :: remaining }
        rw [← hqueue]
        exact h
      split
      · next failure haccept =>
        rw [haccept] at hstep
        refine ⟨hstep, ?_⟩
        intro completed hcompleted
        cases hcompleted
      · next updated haccept =>
        rw [haccept] at hstep
        apply ih (queueNodes updated.planningQueue) _ hstep rfl
        rw [← hnodes, hqueue]
        exact acceptDemand_nodes haccept

end Steps

/-! ## The plan -/

/-- The value at the end stays when it is new. -/
theorem unique_append (values : List Nat) (value : Nat) :
    unique (values ++ [value]) = if value ∈ unique values then unique values else unique values ++ [value] := by
  unfold unique
  rw [List.foldl_append]
  rfl

theorem mem_unique {values : List Nat} {value : Nat} : value ∈ unique values ↔ value ∈ values := by
  induction values using List.reverseRecOn with
  | nil => exact Iff.rfl
  | append_singleton values last ih =>
      rw [unique_append, List.mem_append, List.mem_singleton, ← ih]
      split
      · next hmem =>
        constructor
        · exact Or.inl
        · rintro (hthere | rfl)
          · exact hthere
          · exact hmem
      · rw [List.mem_append, List.mem_singleton]

theorem unique_nodup (values : List Nat) : (unique values).Nodup := by
  induction values using List.reverseRecOn with
  | nil => exact List.nodup_nil
  | append_singleton values last ih =>
      rw [unique_append]
      split
      · exact ih
      · next hnew =>
        apply List.nodup_append.mpr
        refine ⟨ih, List.nodup_singleton last, ?_⟩
        intro value hvalue other hother
        rw [List.mem_singleton.mp hother]
        rintro rfl
        exact hnew hvalue

/-- The demands of a plan are the template types of the module, once each, with all their dependencies. -/
structure ExactPlan (coreModule : CoreModule) (plan : MonomorphizationPlan) : Prop where
  types : ∀ valueType, valueType ∈ plan.monomorphizationDemands.map MonomorphizationDemand.type ↔
    Wanted coreModule valueType
  closed : ∀ demand ∈ plan.monomorphizationDemands,
    validateTemplateType 128 demand.type = [] ∧ concreteTemplateType demand.type = true
  identity : ∀ demand ∈ plan.monomorphizationDemands,
    demand.monomorphizationSpecialization.specializationIdentity = renderTemplateIdentity demand.type
  once : (plan.monomorphizationDemands.map fun demand =>
    demand.monomorphizationSpecialization.specializationIdentity).Nodup
  dependenciesNodup : ∀ demand ∈ plan.monomorphizationDemands, demand.monomorphizationDependencies.Nodup
  dependencies : ∀ demand ∈ plan.monomorphizationDemands, ∀ dependencyId,
    dependencyId ∈ demand.monomorphizationDependencies ↔ ∃ dependency ∈ plan.monomorphizationDemands,
      dependency.monomorphizationDemandId = dependencyId ∧
        dependency.type ∈ (directTypeDependencies demand.type).map Prod.snd

section Finish

variable {coreModule : CoreModule} {state : PlanningState} {demand : MonomorphizationDemand} {valueType : Ty}

theorem mem_finishPlan :
    demand ∈ (finishPlan state).monomorphizationDemands ↔
      ∃ id old, state.planningDemands.find id = some old ∧ demand = resolveDependencies state old := by
  show demand ∈ (state.planningDemands.entries.map Prod.snd).map (resolveDependencies state) ↔ _
  rw [List.map_map, List.mem_map]
  constructor
  · rintro ⟨⟨id, old⟩, hmem, rfl⟩
    exact ⟨id, old, SortedMap.find_eq_some_iff.mpr hmem, rfl⟩
  · rintro ⟨id, old, hfind, rfl⟩
    exact ⟨(id, old), SortedMap.find_eq_some_iff.mp hfind, rfl⟩

theorem mem_finishPlan_types :
    valueType ∈ (finishPlan state).monomorphizationDemands.map MonomorphizationDemand.type ↔
      state.Demanded valueType := by
  rw [List.mem_map]
  constructor
  · rintro ⟨demand, hmem, rfl⟩
    obtain ⟨id, old, hfind, rfl⟩ := mem_finishPlan.mp hmem
    exact ⟨id, old, hfind, rfl⟩
  · rintro ⟨id, old, hfind, rfl⟩
    exact ⟨resolveDependencies state old, mem_finishPlan.mpr ⟨id, old, hfind, rfl⟩, rfl⟩

/-- With nothing pending, what is known is demanded. -/
theorem demanded_of_known (hempty : state.planningQueue = []) (h : state.Known valueType) :
    state.Demanded valueType := by
  rcases h with hdemanded | ⟨pending, hpending, _⟩
  · exact hdemanded
  · rw [hempty] at hpending
    cases hpending

theorem PlanningState.Sound.mem_dependencies (h : state.Sound coreModule)
    (hempty : state.planningQueue = []) {id dependencyId : Nat}
    (hfind : state.planningDemands.find id = some demand) :
    dependencyId ∈ (resolveDependencies state demand).monomorphizationDependencies ↔
      ∃ old, state.planningDemands.find dependencyId = some old ∧
        old.type ∈ (directTypeDependencies demand.type).map Prod.snd := by
  show dependencyId ∈ unique _ ↔ _
  rw [mem_unique, List.mem_filterMap]
  constructor
  · rintro ⟨dependency, hdependency, hid⟩
    -- the dependency is demanded, so its type is one of the valid ones
    obtain ⟨other, old, hold, htype⟩ :=
      demanded_of_known hempty (h.closed demand.type ⟨id, demand, hfind, rfl⟩ dependency hdependency)
    have hsame := h.identity_of_demanded hold
    rw [htype, hid] at hsame
    obtain rfl := Option.some.inj hsame
    refine ⟨old, hold, ?_⟩
    rw [htype]
    exact List.mem_map_of_mem hdependency
  · rintro ⟨old, hold, hmem⟩
    obtain ⟨dependency, hdependency, htype⟩ := List.mem_map.mp hmem
    refine ⟨dependency, hdependency, ?_⟩
    rw [htype]
    exact h.identity_of_demanded hold

theorem PlanningState.Sound.finishPlan_ids (h : state.Sound coreModule) :
    (finishPlan state).monomorphizationDemands.map MonomorphizationDemand.monomorphizationDemandId
      = state.planningDemands.keys := by
  show ((state.planningDemands.entries.map Prod.snd).map (resolveDependencies state)).map _ = _
  unfold SortedMap.keys
  rw [List.map_map, List.map_map]
  apply List.map_congr_left
  rintro ⟨id, demand⟩ hmem
  exact (h.demand id demand (SortedMap.find_eq_some_iff.mpr hmem)).1

theorem PlanningState.Sound.finishPlan_nodup (h : state.Sound coreModule) :
    ((finishPlan state).monomorphizationDemands.map
      MonomorphizationDemand.monomorphizationDemandId).Nodup := by
  rw [h.finishPlan_ids]
  apply List.pairwise_map.mpr
  exact state.planningDemands.ascending.imp Nat.ne_of_lt

/-- The plan passes the checks of `validateDemandGraph`. -/
theorem PlanningState.Sound.finishPlan_wellFormed (h : state.Sound coreModule)
    (hempty : state.planningQueue = []) : (finishPlan state).WellFormed := by
  constructor
  · intro demand hmem
    obtain ⟨id, old, hfind, rfl⟩ := mem_finishPlan.mp hmem
    obtain ⟨hid, hentry, _⟩ := h.demand id old hfind
    have hpositive := ((h.catalog.dense id).mp (by rw [hentry]; rfl)).1
    show 0 < old.monomorphizationDemandId
    omega
  · exact h.finishPlan_nodup
  · intro demand hmem
    obtain ⟨id, old, _, rfl⟩ := mem_finishPlan.mp hmem
    exact unique_nodup _
  · intro demand hmem dependencyId hdependency
    obtain ⟨id, old, hfind, rfl⟩ := mem_finishPlan.mp hmem
    obtain ⟨other, hother, htype⟩ := (h.mem_dependencies hempty hfind).mp hdependency
    obtain ⟨dependency, hdirect, heq⟩ := List.mem_map.mp htype
    refine ⟨resolveDependencies state other, mem_finishPlan.mpr ⟨dependencyId, other, hother, rfl⟩,
      (h.demand dependencyId other hother).1, ?_⟩
    show typeNodes other.type < typeNodes old.type
    rw [← heq]
    exact typeNodes_dependency hdirect
  · intro demand hmem
    obtain ⟨id, old, hfind, rfl⟩ := mem_finishPlan.mp hmem
    exact (h.demand id old hfind).2.2
  · rfl
  · rfl
  · rfl

/-- Two demands of one identity are one. -/
theorem PlanningState.Sound.eq_of_identity (h : state.Sound coreModule) {id other : Nat}
    {old : MonomorphizationDemand} (hdemand : state.planningDemands.find id = some demand)
    (hold : state.planningDemands.find other = some old)
    (hidentity : demand.monomorphizationSpecialization.specializationIdentity
      = old.monomorphizationSpecialization.specializationIdentity) : demand = old := by
  have hid := h.identity_of_demanded hdemand
  rw [← (h.demandedEntry hdemand).2, hidentity, (h.demandedEntry hold).2, h.identity_of_demanded hold] at hid
  obtain rfl := Option.some.inj hid
  rw [hdemand] at hold
  exact Option.some.inj hold

theorem PlanningState.Sound.finishPlan_exact (h : state.Sound coreModule)
    (hempty : state.planningQueue = []) : ExactPlan coreModule (finishPlan state) := by
  constructor
  · intro valueType
    rw [mem_finishPlan_types]
    constructor
    · intro hdemanded
      exact h.wanted valueType (Or.inl hdemanded)
    · apply wanted_of_closed
      · intro item hitem
        exact demanded_of_known hempty (h.roots item hitem)
      · intro template hdemanded dependency hdependency
        exact demanded_of_known hempty (h.closed template hdemanded dependency hdependency)
  · intro demand hmem
    obtain ⟨id, old, hfind, rfl⟩ := mem_finishPlan.mp hmem
    obtain ⟨_, hentry, _⟩ := h.demand id old hfind
    obtain ⟨_, hvalid, hparameters, _⟩ := h.catalog.entry id _ hentry
    refine ⟨hvalid, ?_⟩
    show (collectTemplateParameters old.type).isEmpty = true
    rw [show collectTemplateParameters old.type = [] from hparameters]
    rfl
  · intro demand hmem
    obtain ⟨id, old, hfind, rfl⟩ := mem_finishPlan.mp hmem
    exact (h.demandedEntry hfind).2
  · apply List.Nodup.map_on _ (List.Nodup.of_map _ h.finishPlan_nodup)
    intro demand hmem other hother hidentity
    obtain ⟨id, left, hleft, rfl⟩ := mem_finishPlan.mp hmem
    obtain ⟨id', right, hright, rfl⟩ := mem_finishPlan.mp hother
    rw [h.eq_of_identity hleft hright hidentity]
  · exact (h.finishPlan_wellFormed hempty).dependenciesNodup
  · intro demand hmem dependencyId
    obtain ⟨id, old, hfind, rfl⟩ := mem_finishPlan.mp hmem
    rw [h.mem_dependencies hempty hfind]
    constructor
    · rintro ⟨other, hother, htype⟩
      exact ⟨resolveDependencies state other, mem_finishPlan.mpr ⟨dependencyId, other, hother, rfl⟩,
        (h.demand dependencyId other hother).1, htype⟩
    · rintro ⟨dependency, hdependency, rfl, htype⟩
      obtain ⟨id', other, hother, rfl⟩ := mem_finishPlan.mp hdependency
      refine ⟨other, ?_, htype⟩
      show state.planningDemands.find other.monomorphizationDemandId = some other
      rw [(h.demand id' other hother).1]
      exact hother

end Finish

/-- A plan that is returned has exactly the template types of the module, and its emission order puts every
    dependency before what depends on it; an error that is returned is an error of the input. -/
theorem planCoreMonomorphizationWith_exact (limits : MonomorphizationLimits) (coreModule : CoreModule) :
    (∀ plan, planCoreMonomorphizationWith limits coreModule = .ok plan →
      ExactPlan coreModule plan ∧
        ∃ order, specializationEmissionOrder plan = .ok order ∧ EmissionOrder plan order) ∧
    ∀ failure, planCoreMonomorphizationWith limits coreModule = .error failure → ¬ failure.Internal := by
  obtain ⟨houtcome, hempty⟩ := @drainQueue_sound coreModule
    (initialState (discoverTypeOccurrences coreModule)) limits initialState_sound
  unfold planCoreMonomorphizationWith
  split
  · next failure hlimits =>
    refine ⟨?_, ?_⟩
    · intro plan hplan
      cases hplan
    · intro other hother
      cases hother
      exact validateLimits_error hlimits
  split
  · next failure hdrain =>
    rw [hdrain] at houtcome
    refine ⟨?_, ?_⟩
    · intro plan hplan
      cases hplan
    · intro other hother
      cases hother
      exact houtcome
  · next completed hdrain =>
    rw [hdrain] at houtcome
    have hqueue := hempty completed hdrain
    have hwell := houtcome.finishPlan_wellFormed hqueue
    dsimp only
    -- the graph check has nothing to report
    rw [hwell.validate, if_pos List.isEmpty_nil]
    refine ⟨?_, ?_⟩
    · intro plan hplan
      cases hplan
      exact ⟨houtcome.finishPlan_exact hqueue, hwell.emissionOrder⟩
    · intro other hother
      cases hother

end Tala.Core.Monomorphization
