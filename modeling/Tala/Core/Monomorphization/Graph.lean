import Tala.Core.Monomorphization.Discovery
import Tala.Library.Postorder

/-!
# `Core.Monomorphization.Graph` — the completed graph of demands

A plan is a list of demands, each with the demands it depends on. `specializationEmissionOrder` emits a
demand after its dependencies; `validateDemandGraph` checks the plan. Both succeed on a plan that is
`WellFormed`, with types that get smaller along the dependencies.
-/

namespace Tala.Core.Monomorphization

open Tala Tala.Core Tala.Library

inductive DemandOrigin
  | rootDemand (location : DemandLocation)
  | dependencyDemand (parent argumentIndex : Nat)
  deriving DecidableEq, Repr

inductive DemandState
  | demandQueued | demandComplete
  deriving DecidableEq, Repr

structure MonomorphizationDemand where
  monomorphizationDemandId : Nat
  monomorphizationSpecialization : Specialization
  monomorphizationOrigins : List DemandOrigin
  monomorphizationDependencies : List Nat
  monomorphizationDepth : Nat
  monomorphizationState : DemandState

structure MonomorphizationStatistics where
  discoveredRootOccurrences : Nat
  uniqueSpecializationDemands : Nat
  specializationDependencyEdges : Nat
  specializationCacheHits : Nat
  deepestSpecializationDemand : Nat
  deriving DecidableEq, Repr

structure MonomorphizationPlan where
  monomorphizationDemands : List MonomorphizationDemand
  monomorphizationStatistics : MonomorphizationStatistics

def MonomorphizationDemand.type (demand : MonomorphizationDemand) : Ty :=
  demand.monomorphizationSpecialization.specializationType

inductive DemandGraphIssue
  | duplicateDemandIdentifier (demandId : Nat)
  | nonPositiveDemandIdentifier (demandId : Nat)
  | missingDependency (owner dependency : Nat)
  | duplicateDependency (owner dependency : Nat)
  | selfDependency (owner : Nat)
  | incompleteDemand (demandId : Nat)
  | cyclicDemandPath (path : List Nat)
  | statisticsDemandCountMismatch (stated actual : Nat)
  | statisticsEdgeCountMismatch (stated actual : Nat)
  | statisticsDepthMismatch (stated actual : Nat)
  deriving DecidableEq, Repr

def demandTable (plan : MonomorphizationPlan) : SortedMap Nat MonomorphizationDemand :=
  .ofList (plan.monomorphizationDemands.map fun demand => (demand.monomorphizationDemandId, demand))

/-- The dependencies in the order in which they were first discovered. -/
def demandGraph (table : SortedMap Nat MonomorphizationDemand) : Postorder.Graph Nat where
  nodes := table.keys
  children demandId :=
    (table.find demandId).map fun demand => demand.monomorphizationDependencies.insertionSort (· ≤ ·)
  known := by
    intro demandId h
    rw [SortedMap.mem_keys]
    rwa [Option.isSome_map] at h

/-- A postorder of the demands; or a cycle. -/
def specializationEmissionOrder (plan : MonomorphizationPlan) :
    Except (List Nat) (List MonomorphizationDemand) :=
  let table := demandTable plan
  let roots := plan.monomorphizationDemands.map MonomorphizationDemand.monomorphizationDemandId
  match Postorder.visitMany (demandGraph table) [] [] [] roots with
  | .error cycle => .error cycle
  | .ok (_, reverseOrder) => .ok (reverseOrder.reverse.filterMap table.find)

def collectGroup (value : Nat) : List (List Nat) → List (List Nat)
  | [] => [[value]]
  | (first :: others) :: remaining =>
      if value = first then (value :: first :: others) :: remaining
      else [value] :: (first :: others) :: remaining
  | [] :: remaining => [value] :: remaining

def grouped (values : List Nat) : List (List Nat) :=
  (values.insertionSort (· ≤ ·)).foldr collectGroup []

def validateDependencies (known : List Nat) (demand : MonomorphizationDemand) : List DemandGraphIssue :=
  let owner := demand.monomorphizationDemandId
  let dependencies := demand.monomorphizationDependencies
  (dependencies.filter fun dependency => dependency ∉ known).map (.missingDependency owner)
    ++ (((grouped dependencies).filter fun group => 1 < group.length).filterMap fun group =>
      group.head?.map (.duplicateDependency owner))
    ++ reportWhen (owner ∈ dependencies) (.selfDependency owner)

/-- Identifiers, edges, completion, cycles and statistics. -/
def validateDemandGraph (plan : MonomorphizationPlan) : List DemandGraphIssue :=
  let demands := plan.monomorphizationDemands
  let demandIds := demands.map MonomorphizationDemand.monomorphizationDemandId
  let statistics := plan.monomorphizationStatistics
  let actualCount := demands.length
  let actualEdges := (demands.map fun demand => demand.monomorphizationDependencies.length).sum
  let actualDepth := (demands.map MonomorphizationDemand.monomorphizationDepth).foldl max 0
  (demandIds.filter fun demandId => demandId ≤ 0).map .nonPositiveDemandIdentifier
    ++ (((grouped demandIds).filter fun group => 1 < group.length).filterMap fun group =>
      group.head?.map .duplicateDemandIdentifier)
    ++ demands.flatMap (validateDependencies demandIds)
    ++ (demands.filter fun demand => demand.monomorphizationState ≠ .demandComplete).map
      (fun demand => .incompleteDemand demand.monomorphizationDemandId)
    ++ (match specializationEmissionOrder plan with
      | .error cyclePath => [.cyclicDemandPath cyclePath]
      | .ok _ => [])
    ++ reportWhen (statistics.uniqueSpecializationDemands ≠ actualCount)
      (.statisticsDemandCountMismatch statistics.uniqueSpecializationDemands actualCount)
    ++ reportWhen (statistics.specializationDependencyEdges ≠ actualEdges)
      (.statisticsEdgeCountMismatch statistics.specializationDependencyEdges actualEdges)
    ++ reportWhen (statistics.deepestSpecializationDemand ≠ actualDepth)
      (.statisticsDepthMismatch statistics.deepestSpecializationDemand actualDepth)

/-! ## Well-formed plans -/

/-- The demands have one number each, and depend on other demands of the plan, of smaller types. -/
structure MonomorphizationPlan.WellFormed (plan : MonomorphizationPlan) : Prop where
  positive : ∀ demand ∈ plan.monomorphizationDemands, 0 < demand.monomorphizationDemandId
  ids : (plan.monomorphizationDemands.map MonomorphizationDemand.monomorphizationDemandId).Nodup
  dependenciesNodup : ∀ demand ∈ plan.monomorphizationDemands, demand.monomorphizationDependencies.Nodup
  dependencies : ∀ demand ∈ plan.monomorphizationDemands,
    ∀ dependencyId ∈ demand.monomorphizationDependencies, ∃ dependency ∈ plan.monomorphizationDemands,
      dependency.monomorphizationDemandId = dependencyId ∧ typeNodes dependency.type < typeNodes demand.type
  complete : ∀ demand ∈ plan.monomorphizationDemands, demand.monomorphizationState = .demandComplete
  count : plan.monomorphizationStatistics.uniqueSpecializationDemands = plan.monomorphizationDemands.length
  edges : plan.monomorphizationStatistics.specializationDependencyEdges
    = (plan.monomorphizationDemands.map fun demand => demand.monomorphizationDependencies.length).sum
  depth : plan.monomorphizationStatistics.deepestSpecializationDemand
    = (plan.monomorphizationDemands.map MonomorphizationDemand.monomorphizationDepth).foldl max 0

/-- Values that are not repeated are groups of their own. -/
theorem foldr_collectGroup {values : List Nat} (h : values.Nodup) :
    values.foldr collectGroup [] = values.map fun value => [value] := by
  induction values with
  | nil => rfl
  | cons value remaining ih =>
      obtain ⟨hnew, hnodup⟩ := List.nodup_cons.mp h
      rw [List.foldr_cons, ih hnodup]
      cases remaining with
      | nil => rfl
      | cons next others =>
          show (if value = next then _ else _) = _
          rw [if_neg]
          · rfl
          · rintro rfl
            exact hnew List.mem_cons_self

theorem filter_grouped {values : List Nat} (h : values.Nodup) :
    ((grouped values).filter fun group => 1 < group.length) = [] := by
  have hsorted : (values.insertionSort (· ≤ ·)).Nodup :=
    (List.perm_insertionSort (· ≤ ·) values).nodup_iff.mpr h
  unfold grouped
  rw [foldr_collectGroup hsorted, List.filter_eq_nil_iff]
  intro group hgroup
  obtain ⟨value, _, rfl⟩ := List.mem_map.mp hgroup
  simp

section WellFormed

variable {plan : MonomorphizationPlan}

theorem MonomorphizationPlan.WellFormed.find_table (h : plan.WellFormed) {demandId : Nat}
    {demand : MonomorphizationDemand} : (demandTable plan).find demandId = some demand ↔
      demand ∈ plan.monomorphizationDemands ∧ demand.monomorphizationDemandId = demandId := by
  unfold demandTable
  rw [SortedMap.find_ofList_eq_some_iff]
  · constructor
    · intro hmem
      obtain ⟨other, hother, heq⟩ := List.mem_map.mp hmem
      obtain ⟨rfl, rfl⟩ := Prod.mk.inj heq
      exact ⟨hother, rfl⟩
    · rintro ⟨hmem, rfl⟩
      exact List.mem_map.mpr ⟨demand, hmem, rfl⟩
  · rw [List.map_map]
    exact h.ids

/-- The order in which the demands are emitted. -/
structure EmissionOrder (plan : MonomorphizationPlan) (order : List MonomorphizationDemand) : Prop where
  perm : order.Perm plan.monomorphizationDemands
  ordered : ∀ earlier demand later, order = earlier ++ demand :: later →
    ∀ dependencyId ∈ demand.monomorphizationDependencies,
      ∃ dependency ∈ earlier, dependency.monomorphizationDemandId = dependencyId

/-- The size of a demand's type. -/
def demandRank (plan : MonomorphizationPlan) (demandId : Nat) : Nat :=
  match (demandTable plan).find demandId with
  | some demand => typeNodes demand.type
  | none => 0

theorem MonomorphizationPlan.WellFormed.demandRank_lt (h : plan.WellFormed) (demandId : Nat)
    (children : List Nat) (hchildren : (demandGraph (demandTable plan)).children demandId = some children) :
    ∀ child ∈ children, demandRank plan child < demandRank plan demandId := by
  obtain ⟨demand, hfind, rfl⟩ := Option.map_eq_some_iff.mp hchildren
  intro child hchild
  rw [List.mem_insertionSort] at hchild
  obtain ⟨hmem, rfl⟩ := h.find_table.mp hfind
  obtain ⟨dependency, hdependency, hid, hlt⟩ := h.dependencies demand hmem child hchild
  have hchild := h.find_table.mpr ⟨hdependency, hid⟩
  unfold demandRank
  rw [hfind, hchild]
  exact hlt

/-- Every dependency is emitted before what depends on it. -/
theorem MonomorphizationPlan.WellFormed.emissionOrder (h : plan.WellFormed) :
    ∃ order, specializationEmissionOrder plan = .ok order ∧ EmissionOrder plan order := by
  obtain ⟨complete, output, hvisit, hemitted, hfound⟩ := Postorder.visitMany_emitted h.demandRank_lt
    (plan.monomorphizationDemands.map MonomorphizationDemand.monomorphizationDemandId)
  refine ⟨output.reverse.filterMap (demandTable plan).find, ?_, ?_⟩
  · unfold specializationEmissionOrder
    dsimp only
    rw [hvisit]
  have hknown : ∀ demandId ∈ output, ∃ demand, (demandTable plan).find demandId = some demand := by
    intro demandId hmem
    have hsome := hemitted.known demandId hmem
    exact Option.isSome_iff_exists.mp (by rwa [← Option.isSome_map])
  have hmem : ∀ demand, demand ∈ output.reverse.filterMap (demandTable plan).find ↔
      demand ∈ plan.monomorphizationDemands := by
    intro demand
    rw [List.mem_filterMap]
    constructor
    · rintro ⟨demandId, _, hfind⟩
      exact (h.find_table.mp hfind).1
    · intro hdemand
      have hfind := h.find_table.mpr ⟨hdemand, rfl⟩
      refine ⟨demand.monomorphizationDemandId, List.mem_reverse.mpr ?_, hfind⟩
      apply hfound _ (List.mem_map_of_mem hdemand)
      show (Option.map _ ((demandTable plan).find _)).isSome = true
      rw [hfind]
      rfl
  have hids : ∀ demandIds : List Nat, (∀ demandId ∈ demandIds, demandId ∈ output) →
      (demandIds.filterMap (demandTable plan).find).map MonomorphizationDemand.monomorphizationDemandId
        = demandIds := by
    intro demandIds
    induction demandIds with
    | nil =>
        intro _
        rfl
    | cons demandId remaining ih =>
        intro hall
        obtain ⟨demand, hfind⟩ := hknown demandId (hall demandId List.mem_cons_self)
        rw [List.filterMap_cons_some hfind, List.map_cons, (h.find_table.mp hfind).2,
          ih fun other hother => hall other (List.mem_cons_of_mem demandId hother)]
  have horderIds := hids output.reverse fun demandId hmem => List.mem_reverse.mp hmem
  constructor
  · refine (List.perm_ext_iff_of_nodup ?_ ?_).mpr hmem
    · apply List.Nodup.of_map MonomorphizationDemand.monomorphizationDemandId
      rw [horderIds]
      exact List.nodup_reverse.mpr hemitted.nodup
    · exact List.Nodup.of_map _ h.ids
  · intro earlier demand later heq dependencyId hdependency
    -- the same split, in the identifiers
    rw [heq, List.map_append, List.map_cons] at horderIds
    have houtput : output = (later.map MonomorphizationDemand.monomorphizationDemandId).reverse
        ++ demand.monomorphizationDemandId
          :: (earlier.map MonomorphizationDemand.monomorphizationDemandId).reverse := by
      rw [← List.reverse_reverse output, ← horderIds]
      simp
    have hdemand : demand ∈ plan.monomorphizationDemands := by
      rw [← hmem, heq]
      exact List.mem_append_right _ List.mem_cons_self
    have hfind := h.find_table.mpr ⟨hdemand, rfl⟩
    obtain ⟨dependency, hthere, hid, _⟩ := h.dependencies demand hdemand dependencyId hdependency
    have hbefore := hemitted.ordered _ _ _ houtput (demand.monomorphizationDependencies.insertionSort (· ≤ ·))
      (by
        show Option.map _ ((demandTable plan).find _) = _
        rw [hfind]
        rfl)
      dependencyId ((List.mem_insertionSort _).mpr hdependency)
      (by
        show (Option.map _ ((demandTable plan).find _)).isSome = true
        rw [h.find_table.mpr ⟨hthere, hid⟩]
        rfl)
    exact List.mem_map.mp (List.mem_reverse.mp hbefore)

/-- A well-formed plan passes its check. -/
theorem MonomorphizationPlan.WellFormed.validate (h : plan.WellFormed) : validateDemandGraph plan = [] := by
  obtain ⟨order, horder, _⟩ := h.emissionOrder
  unfold validateDemandGraph
  dsimp only
  rw [horder, h.count, h.edges, h.depth, filter_grouped h.ids]
  simp only [List.append_eq_nil_iff]
  refine ⟨⟨⟨⟨⟨⟨⟨?_, rfl⟩, ?_⟩, ?_⟩, trivial⟩, ?_⟩, ?_⟩, ?_⟩
  · rw [List.map_eq_nil_iff, List.filter_eq_nil_iff]
    intro demandId hmem
    obtain ⟨demand, hdemand, rfl⟩ := List.mem_map.mp hmem
    have := h.positive demand hdemand
    simp only [decide_eq_true_eq]
    omega
  · rw [List.flatMap_eq_nil_iff]
    intro demand hdemand
    unfold validateDependencies
    dsimp only
    rw [filter_grouped (h.dependenciesNodup demand hdemand)]
    have hmissing : (demand.monomorphizationDependencies.filter fun dependency => dependency ∉
        plan.monomorphizationDemands.map MonomorphizationDemand.monomorphizationDemandId) = [] := by
      rw [List.filter_eq_nil_iff]
      intro dependencyId hdependency
      obtain ⟨dependency, hthere, rfl, _⟩ := h.dependencies demand hdemand dependencyId hdependency
      simpa using ⟨dependency, hthere, rfl⟩
    have hself : demand.monomorphizationDemandId ∉ demand.monomorphizationDependencies := by
      intro hmem
      obtain ⟨dependency, hthere, hid, hlt⟩ := h.dependencies demand hdemand _ hmem
      have hsame := List.inj_on_of_nodup_map h.ids hthere hdemand hid
      rw [hsame] at hlt
      exact Nat.lt_irrefl _ hlt
    rw [hmissing]
    simp [reportWhen, hself]
  · rw [List.map_eq_nil_iff, List.filter_eq_nil_iff]
    intro demand hdemand
    simp [h.complete demand hdemand]
  · simp [reportWhen]
  · simp [reportWhen]
  · simp [reportWhen]

end WellFormed

end Tala.Core.Monomorphization
