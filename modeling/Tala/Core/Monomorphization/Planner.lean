import Tala.Core.Monomorphization.Graph

/-!
# `Core.Monomorphization.Planner` — the demands of a module

The planner takes one pending type after the other from a queue. A type with a new identity becomes a
demand, and its direct dependencies are queued; they are parts of the type, so the queue gets smaller in
nodes with every step and `drainQueue` ends. The edges of the graph are put in at the end, when every
identity has its number.
-/

namespace Tala.Core.Monomorphization

open Tala Tala.Core Tala.Library

structure MonomorphizationLimits where
  maximumSpecializationDemands : Int
  maximumDemandDepth : Int
  maximumDemandOrigins : Int

def defaultMonomorphizationLimits : MonomorphizationLimits := ⟨4096, 128, 16384⟩

inductive MonomorphizationError
  | invalidMonomorphizationLimits (message : String)
  | invalidDemandType (origin : DemandOrigin) (failure : SpecializationError)
  | specializationLimitExceeded (maximum : Int) (origin : DemandOrigin) (valueType : Ty)
  | demandDepthExceeded (maximum : Int) (origin : DemandOrigin) (valueType : Ty)
  | demandOriginLimitExceeded (maximum : Int) (origin : DemandOrigin) (valueType : Ty)
  | invalidCompletedDemandGraph (issues : List DemandGraphIssue)
  | internalMissingDemand (identity : List Char)

structure PendingDemand where
  pendingType : Ty
  pendingOrigin : DemandOrigin
  pendingDepth : Nat

structure PlanningState where
  planningCatalog : SpecializationCatalog
  planningDemands : SortedMap Nat MonomorphizationDemand
  planningIdentityIds : SortedMap (List Char) Nat
  planningQueue : List PendingDemand
  planningRootOccurrences : Nat
  planningOriginCount : Nat
  planningCacheHits : Nat

def validateLimits (limits : MonomorphizationLimits) : Except MonomorphizationError Unit :=
  if limits.maximumSpecializationDemands ≤ 0 then
    .error (.invalidMonomorphizationLimits "maximum demand count must be positive")
  else if limits.maximumDemandDepth < 0 then
    .error (.invalidMonomorphizationLimits "maximum demand depth cannot be negative")
  else if limits.maximumDemandOrigins ≤ 0 then
    .error (.invalidMonomorphizationLimits "maximum origin count must be positive")
  else .ok ()

def mapSpecializationError {α : Type} (pending : PendingDemand) :
    Except SpecializationError α → Except MonomorphizationError α
  | .error failure => .error (.invalidDemandType pending.pendingOrigin failure)
  | .ok value => .ok value

/-- A demand that is there gets one origin more. -/
def attachExistingOrigin (limits : MonomorphizationLimits) (demandId : Nat) (pending : PendingDemand)
    (state : PlanningState) : Except MonomorphizationError PlanningState :=
  match state.planningDemands.find demandId with
  | none => .error (.internalMissingDemand (renderTemplateIdentity pending.pendingType))
  | some demand =>
      if pending.pendingOrigin ∈ demand.monomorphizationOrigins then
        .ok { state with planningCacheHits := state.planningCacheHits + 1 }
      else if state.planningOriginCount ≥ limits.maximumDemandOrigins then
        .error (.demandOriginLimitExceeded limits.maximumDemandOrigins pending.pendingOrigin
          pending.pendingType)
      else
        let updatedDemand := { demand with
          monomorphizationOrigins := demand.monomorphizationOrigins ++ [pending.pendingOrigin],
          monomorphizationDepth := min demand.monomorphizationDepth pending.pendingDepth }
        .ok { state with
          planningDemands := state.planningDemands.insert demandId updatedDemand,
          planningOriginCount := state.planningOriginCount + 1,
          planningCacheHits := state.planningCacheHits + 1 }

/-- The parent is complete once its direct dependencies are queued. -/
def completeDemandDependencies (demandId : Nat) (state : PlanningState) : PlanningState :=
  match state.planningDemands.find demandId with
  | none => state
  | some demand =>
      { state with
        planningDemands :=
          state.planningDemands.insert demandId { demand with monomorphizationState := .demandComplete } }

def createDemand (limits : MonomorphizationLimits) (identity : List Char) (concrete : Ty)
    (pending : PendingDemand) (state : PlanningState) : Except MonomorphizationError PlanningState :=
  if state.planningDemands.entries.length ≥ limits.maximumSpecializationDemands then
    .error (.specializationLimitExceeded limits.maximumSpecializationDemands pending.pendingOrigin concrete)
  else if state.planningOriginCount ≥ limits.maximumDemandOrigins then
    .error (.demandOriginLimitExceeded limits.maximumDemandOrigins pending.pendingOrigin concrete)
  else
    match mapSpecializationError pending (internSpecialization concrete state.planningCatalog) with
    | .error failure => .error failure
    | .ok (specialization, inserted, catalog) =>
        if !inserted then .error (.internalMissingDemand identity)
        else
          let demandId := specialization.specializationId
          let queued := (directTypeDependencies concrete).map fun dependency =>
            (⟨dependency.2, .dependencyDemand demandId dependency.1, pending.pendingDepth + 1⟩ : PendingDemand)
          let demand : MonomorphizationDemand :=
            ⟨demandId, specialization, [pending.pendingOrigin], [], pending.pendingDepth, .demandQueued⟩
          .ok (completeDemandDependencies demandId { state with
            planningCatalog := catalog,
            planningDemands := state.planningDemands.insert demandId demand,
            planningIdentityIds := state.planningIdentityIds.insert identity demandId,
            planningQueue := state.planningQueue ++ queued,
            planningOriginCount := state.planningOriginCount + 1 })

def acceptDemand (limits : MonomorphizationLimits) (pending : PendingDemand) (state : PlanningState) :
    Except MonomorphizationError PlanningState :=
  if pending.pendingDepth > limits.maximumDemandDepth then
    .error (.demandDepthExceeded limits.maximumDemandDepth pending.pendingOrigin pending.pendingType)
  else
    match mapSpecializationError pending (prepareSpecialization [] [] pending.pendingType) with
    | .error failure => .error failure
    | .ok concrete =>
        let identity := renderTemplateIdentity concrete
        match state.planningIdentityIds.find identity with
        | some demandId => attachExistingOrigin limits demandId pending state
        | none => createDemand limits identity concrete pending state

/-! ## The queue -/

/-- The nodes of all types that are pending. -/
def queueNodes (queue : List PendingDemand) : Nat :=
  (queue.map fun pending => typeNodes pending.pendingType).sum

theorem queueNodes_append (left right : List PendingDemand) :
    queueNodes (left ++ right) = queueNodes left + queueNodes right := by
  unfold queueNodes
  rw [List.map_append, List.sum_append]

theorem completeDemandDependencies_queue (demandId : Nat) (state : PlanningState) :
    (completeDemandDependencies demandId state).planningQueue = state.planningQueue := by
  unfold completeDemandDependencies
  split <;> rfl

variable {pending : PendingDemand} {limits : MonomorphizationLimits}

/-- What a prepared type is. -/
theorem prepared_eq {concrete : Ty}
    (h : mapSpecializationError pending (prepareSpecialization [] [] pending.pendingType) = .ok concrete) :
    concrete = pending.pendingType ∧ validateTemplateType 128 pending.pendingType = [] ∧
      collectTemplateParameters pending.pendingType = [] := by
  rw [← prepareSpecialization_nil]
  unfold mapSpecializationError at h
  split at h
  · cases h
  · next hprepare =>
    cases h
    exact hprepare

variable {state updated : PlanningState}

theorem attachExistingOrigin_queue {demandId : Nat}
    (h : attachExistingOrigin limits demandId pending state = .ok updated) :
    updated.planningQueue = state.planningQueue := by
  unfold attachExistingOrigin at h
  split at h
  · cases h
  split at h
  · cases h
    rfl
  split at h
  · cases h
  · cases h
    rfl

theorem createDemand_nodes {identity : List Char} {concrete : Ty}
    (h : createDemand limits identity concrete pending state = .ok updated) :
    queueNodes updated.planningQueue < queueNodes state.planningQueue + typeNodes concrete := by
  unfold createDemand at h
  split at h
  · cases h
  split at h
  · cases h
  split at h
  · cases h
  split at h
  · cases h
  · cases h
    rw [completeDemandDependencies_queue]
    dsimp only
    rw [queueNodes_append]
    have hnodes := dependencyNodes_lt concrete
    unfold queueNodes dependencyNodes at *
    rw [List.map_map]
    show _ + ((directTypeDependencies concrete).map fun dependency => typeNodes dependency.2).sum < _
    omega

/-- Every step takes nodes from the queue. -/
theorem acceptDemand_nodes (h : acceptDemand limits pending state = .ok updated) :
    queueNodes updated.planningQueue < queueNodes (pending :: state.planningQueue) := by
  have hpending : 0 < typeNodes pending.pendingType :=
    lt_of_le_of_lt (Nat.zero_le _) (dependencyNodes_lt pending.pendingType)
  have hcons : queueNodes (pending :: state.planningQueue)
      = typeNodes pending.pendingType + queueNodes state.planningQueue := rfl
  unfold acceptDemand at h
  split at h
  · cases h
  split at h
  · cases h
  · next concrete hprepare =>
    obtain ⟨rfl, _, _⟩ := prepared_eq hprepare
    dsimp only at h
    split at h
    · rw [attachExistingOrigin_queue h]
      omega
    · have := createDemand_nodes h
      omega

def drainQueue (limits : MonomorphizationLimits) (state : PlanningState) :
    Except MonomorphizationError PlanningState :=
  match _hqueue : state.planningQueue with
  | [] => .ok state
  | pending :: remaining =>
      match _haccept : acceptDemand limits pending { state with planningQueue := remaining } with
      | .error failure => .error failure
      | .ok updated => drainQueue limits updated
termination_by queueNodes state.planningQueue
decreasing_by
  rw [_hqueue]
  exact acceptDemand_nodes _haccept

/-! ## The plan -/

def unique (values : List Nat) : List Nat :=
  values.foldl (fun values value => if value ∈ values then values else values ++ [value]) []

def resolveDependencies (state : PlanningState) (demand : MonomorphizationDemand) : MonomorphizationDemand :=
  { demand with
    monomorphizationDependencies := unique ((directTypeDependencies demand.type).filterMap fun dependency =>
      state.planningIdentityIds.find (renderTemplateIdentity dependency.2)) }

def finishPlan (state : PlanningState) : MonomorphizationPlan :=
  let demands := (state.planningDemands.entries.map Prod.snd).map (resolveDependencies state)
  let edgeCount := (demands.map fun demand => demand.monomorphizationDependencies.length).sum
  let deepest := (demands.map MonomorphizationDemand.monomorphizationDepth).foldl max 0
  ⟨demands, ⟨state.planningRootOccurrences, demands.length, edgeCount, state.planningCacheHits, deepest⟩⟩

def initialState (occurrences : List TypeOccurrence) : PlanningState where
  planningCatalog := emptyCatalog
  planningDemands := ∅
  planningIdentityIds := ∅
  planningQueue := occurrences.map fun item => ⟨item.occurrenceType, .rootDemand item.occurrenceLocation, 0⟩
  planningRootOccurrences := occurrences.length
  planningOriginCount := 0
  planningCacheHits := 0

/-- Plan the demands of a module and check the graph. -/
def planCoreMonomorphizationWith (limits : MonomorphizationLimits) (coreModule : CoreModule) :
    Except MonomorphizationError MonomorphizationPlan :=
  match validateLimits limits with
  | .error failure => .error failure
  | .ok () =>
      match drainQueue limits (initialState (discoverTypeOccurrences coreModule)) with
      | .error failure => .error failure
      | .ok completed =>
          let plan := finishPlan completed
          let graphIssues := validateDemandGraph plan
          if graphIssues.isEmpty then .ok plan else .error (.invalidCompletedDemandGraph graphIssues)

def planCoreMonomorphization (coreModule : CoreModule) : Except MonomorphizationError MonomorphizationPlan :=
  planCoreMonomorphizationWith defaultMonomorphizationLimits coreModule

def findDemand (demandId : Nat) (plan : MonomorphizationPlan) : Option MonomorphizationDemand :=
  plan.monomorphizationDemands.find? fun demand => demand.monomorphizationDemandId = demandId

def findDemandByType (valueType : Ty) (plan : MonomorphizationPlan) : Option MonomorphizationDemand :=
  plan.monomorphizationDemands.find? fun demand =>
    demand.monomorphizationSpecialization.specializationIdentity = renderTemplateIdentity valueType

end Tala.Core.Monomorphization
