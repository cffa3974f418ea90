import Tala.Runtime.Aarc

/-!
# `Runtime.AarcFacts` — reference counting under every interleaving

The life of an object is a line of stages (`Stage`). The stage says everything about its header but the two
counts, which are the numbers of references that the owners have (`Object.strongReferences`,
`Object.controlReferences`), and it says which phase the one owner is in that may move the object to the
next stage (`Phase.stage`). `At` is this invariant; every step keeps the stage or moves it on by one.
-/

namespace Tala.Runtime.Aarc

/-! ## Stages -/

inductive Stage where
  /-- The header is new and not yet counted among the live allocations. -/
  | made
  | counted
  | alive
  /-- The strong count is zero; the last release has yet to change the state. -/
  | claimed
  | destructing
  | clearing
  | marking
  /-- The object is destroyed; the implicit reference has yet to be dropped. -/
  | dropping
  /-- Only weak and unowned handles are left. -/
  | orphaned
  | reclaiming
  /-- No longer counted among the live allocations. -/
  | freeing
  | freed
deriving DecidableEq, Repr

namespace Stage

def strong : Stage → Bool
  | made | counted | alive => true
  | claimed | destructing | clearing | marking | dropping | orphaned | reclaiming | freeing | freed => false

/-- Only the allocating owner knows the object. -/
def allocating : Stage → Bool
  | made | counted => true
  | alive | claimed | destructing | clearing | marking | dropping | orphaned | reclaiming | freeing | freed =>
      false

/-- The implicit reference. -/
def implicit : Stage → Nat
  | made | counted | alive | claimed | destructing | clearing | marking | dropping => 1
  | orphaned | reclaiming | freeing | freed => 0

def state : Stage → ObjectState
  | made | counted | alive | claimed => .alive
  | destructing | clearing | marking => .destroying
  | dropping | orphaned | reclaiming | freeing | freed => .destroyed

def object : Stage → Bool
  | alive | claimed | destructing | clearing => true
  | made | counted | marking | dropping | orphaned | reclaiming | freeing | freed => false

/-- Some owner is to move the object on. -/
def acting : Stage → Bool
  | alive | orphaned | freed => false
  | made | counted | claimed | destructing | clearing | marking | dropping | reclaiming | freeing => true

/-- No reference is left. -/
def gone : Stage → Bool
  | reclaiming | freeing | freed => true
  | made | counted | alive | claimed | destructing | clearing | marking | dropping | orphaned => false

/-- Counted among the live allocations. -/
def live : Stage → Bool
  | made | freeing | freed => false
  | counted | alive | claimed | destructing | clearing | marking | dropping | orphaned | reclaiming => true

def header (stage : Stage) (destructor : Bool) (strongReferences controlReferences : Nat) :
    Option ObjectHeader :=
  if stage = freed then none
  else some ⟨stage.state, strongReferences, controlReferences + stage.implicit, destructor, stage.object⟩

/-- What has happened to the object, by the release that destroys it and the owner that frees it. -/
def lifecycle (destructor : Bool) (destroyer reclaimer : Nat) : Stage → List (Nat × Event)
  | made | counted | alive => []
  | claimed => [(destroyer, .zeroed)]
  | destructing => (destroyer, .zeroed) :: if destructor then [(destroyer, .destructorBegins)] else []
  | clearing | marking | dropping | orphaned | reclaiming | freeing =>
      (destroyer, .zeroed) ::
        if destructor then [(destroyer, .destructorBegins), (destroyer, .destructorEnds)] else []
  | freed =>
      ((destroyer, .zeroed) ::
        if destructor then [(destroyer, .destructorBegins), (destroyer, .destructorEnds)] else [])
        ++ [(reclaimer, .freed)]

theorem eq_orphaned {stage : Stage} (himplicit : stage.implicit = 0) (hgone : stage.gone = false) :
    stage = orphaned := by
  revert himplicit hgone
  cases stage <;> decide

theorem eq_alive {stage : Stage} (hstrong : stage.strong = true) (hallocated : stage.allocating = false) :
    stage = alive := by
  revert hstrong hallocated
  cases stage <;> decide

theorem acting_of_allocating {stage : Stage} (h : stage.allocating = true) : stage.acting = true := by
  revert h
  cases stage <;> decide

end Stage

/-- The stage that only an owner in this phase can end. -/
def Phase.stage : Phase → Option Stage
  | allocateCount => some .made
  | allocateStore => some .counted
  | destroyExchange => some .claimed
  | destructing => some .destructing
  | clearObject => some .clearing
  | markDestroyed => some .marking
  | controlSub none => some .dropping
  | liveSub => some .reclaiming
  | free => some .freeing
  | idle | tryLoad _ | tryExchange _ _ | tryObject _ _ | controlLoad _ | controlExchange _ _ | releaseCheck
    | releaseSub | controlSub (some _) => none

/-! ## References -/

/-- A strong reference that the phase has: the initial one, a new one, or one that is being released. -/
def Phase.strongReferences : Phase → Nat
  | allocateCount | allocateStore | tryObject _ _ | releaseCheck | releaseSub => 1
  | idle | tryLoad _ | tryExchange _ _ | controlLoad _ | controlExchange _ _ | destroyExchange | destructing
    | clearObject | markDestroyed | controlSub _ | liveSub | free => 0

def Phase.controlReferences : Phase → Nat
  | controlSub (some _) => 1
  | idle | allocateCount | allocateStore | tryLoad _ | tryExchange _ _ | tryObject _ _ | controlLoad _
    | controlExchange _ _ | releaseCheck | releaseSub | destroyExchange | destructing | clearObject
    | markDestroyed | controlSub none | liveSub | free => 0

def Owner.strongReferences (owner : Owner) : Nat := owner.strong + owner.phase.strongReferences

def Owner.controlReferences (owner : Owner) : Nat :=
  owner.weak + owner.unowned + owner.phase.controlReferences

/-- Releases that found the strong count saturated: their references are never taken off it. -/
def ignored (history : List (Nat × Event)) : Nat := history.countP fun entry => entry.2 = .ignored

namespace Object

def strongReferences (object : Object) : Nat :=
  (object.owners.map Owner.strongReferences).sum + ignored object.history

def controlReferences (object : Object) : Nat := (object.owners.map Owner.controlReferences).sum

end Object

def Event.isLifecycle : Event → Bool
  | zeroed | destructorBegins | destructorEnds | freed => true
  | ignored | yields _ _ _ => false

def lifecycleOf (history : List (Nat × Event)) : List (Nat × Event) :=
  history.filter fun entry => entry.2.isLifecycle

/-- A retain returns the object if and only if it has exchanged a count above zero. It returns null after
it has seen zero or a saturated count. -/
def Event.Honest : Event → Prop
  | yields _ object count => if object then 0 < count ∧ count < maximum else count = 0 ∨ count = maximum
  | zeroed | destructorBegins | destructorEnds | freed | ignored => True

theorem sum_map_set {α : Type} (f : α → Nat) {list : List α} {index : Nat} {old : α}
    (h : list[index]? = some old) (new : α) :
    ((list.set index new).map f).sum + f old = (list.map f).sum + f new := by
  induction list generalizing index with
  | nil => cases h
  | cons head tail ih =>
      cases index with
      | zero =>
          cases h
          simp only [List.set_cons_zero, List.map_cons, List.sum_cons]
          omega
      | succ index =>
          have htail := @ih index h
          simp only [List.set_cons_succ, List.map_cons, List.sum_cons]
          omega

theorem le_sum_map {α : Type} (f : α → Nat) {list : List α} {index : Nat} {a : α}
    (h : list[index]? = some a) : f a ≤ (list.map f).sum := by
  induction list generalizing index with
  | nil => cases h
  | cons head tail ih =>
      rw [List.map_cons, List.sum_cons]
      cases index with
      | zero =>
          cases h
          omega
      | succ index =>
          have := @ih index h
          omega

theorem add_le_sum_map {α : Type} (f : α → Nat) {list : List α} {i j : Nat} {a b : α} (hne : i ≠ j)
    (ha : list[i]? = some a) (hb : list[j]? = some b) : f a + f b ≤ (list.map f).sum := by
  induction list generalizing i j with
  | nil => cases ha
  | cons head tail ih =>
      rw [List.map_cons, List.sum_cons]
      cases i with
      | zero =>
          cases ha
          cases j with
          | zero => exact absurd rfl hne
          | succ j =>
              have := @le_sum_map _ f tail j _ hb
              omega
      | succ i =>
          cases j with
          | zero =>
              cases hb
              have := @le_sum_map _ f tail i _ ha
              omega
          | succ j =>
              have := ih (fun heq => hne (congrArg Nat.succ heq)) ha hb
              omega

/-! ## The invariant -/

/-- An object at a stage. The last release is the destroyer's; the actor is the owner that may end the
stage, or freed the object. -/
structure At (object : Object) (stage : Stage) (destructor : Bool) (destroyer actor : Nat) : Prop where
  metadata : object.destructor = destructor
  header : object.header = stage.header destructor object.strongReferences object.controlReferences
  held : stage.strong = true → 0 < object.strongReferences
  released : stage.strong = false → object.strongReferences = 0
  strongBound : object.strongReferences ≤ maximum
  orphaned : stage = .orphaned → 0 < object.controlReferences
  gone : stage.gone = true → object.controlReferences = 0
  controlBound : object.controlReferences + stage.implicit ≤ maximum
  phases : ∀ index owner, object.owners[index]? = some owner →
    owner.phase.stage = if index = actor ∧ stage.acting = true then some stage else none
  there : stage.acting = true → actor < object.owners.length
  destroys : stage.acting = true → stage.strong = false → stage.gone = false → destroyer = actor
  lifecycle : lifecycleOf object.history = stage.lifecycle destructor destroyer actor
  honest : ∀ entry ∈ object.history, entry.2.Honest
  exchanged : ∀ owner ∈ object.owners, ∀ handle count, owner.phase = .tryObject handle count →
    0 < count ∧ count < maximum
  fresh : stage.allocating = true → object.strongReferences = 1 ∧ object.controlReferences = 0 ∧
    ∀ index owner, object.owners[index]? = some owner → index ≠ actor → owner.phase = .idle

/-- What a change of the live allocations says about the object that makes it. -/
def LiveChange.Moves : LiveChange → Bool → Bool → Prop
  | same, before, after => after = before
  | up, before, after => before = false ∧ after = true
  | down, before, after => before = true ∧ after = false

/-- An object after a step of one of its owners. -/
def Object.after (object : Object) (index : Nat) (after : After) : Object :=
  ⟨object.destructor, after.header, object.owners.set index after.owner,
    object.history ++ after.events.map fun event => (index, event)⟩

section Steps

variable {object : Object} {stage stage' : Stage} {destructor : Bool} {destroyer actor actor' index : Nat}
  {owner : Owner} {after : After} {header : ObjectHeader}

theorem Object.strongReferences_after (h : object.owners[index]? = some owner) (after : After) :
    (object.after index after).strongReferences + owner.strongReferences
      = object.strongReferences + after.owner.strongReferences + after.events.countP (· = .ignored) := by
  have hsum := sum_map_set Owner.strongReferences h after.owner
  have hignored : ignored (object.after index after).history
      = ignored object.history + after.events.countP (· = .ignored) := by
    unfold ignored Object.after
    rw [List.countP_append, List.countP_map]
    rfl
  unfold Object.strongReferences
  rw [hignored]
  show ((object.owners.set index after.owner).map _).sum + _ + _ = _
  omega

theorem Object.controlReferences_after (h : object.owners[index]? = some owner) (after : After) :
    (object.after index after).controlReferences + owner.controlReferences
      = object.controlReferences + after.owner.controlReferences :=
  sum_map_set Owner.controlReferences h after.owner

section AtStage

variable (h : At object stage destructor destroyer actor)

include h

/-- What has to be said about a step, with the references after it. -/
theorem At.step (howner : object.owners[index]? = some owner) {destroyer' : Nat} (strong control : Nat)
    (hS : strong + owner.strongReferences
      = object.strongReferences + after.owner.strongReferences + after.events.countP (· = .ignored))
    (hW : control + owner.controlReferences = object.controlReferences + after.owner.controlReferences)
    (hheader : after.header = stage'.header destructor strong control)
    (hheld : stage'.strong = true → 0 < strong) (hreleased : stage'.strong = false → strong = 0)
    (hstrong : strong ≤ maximum) (horphaned : stage' = .orphaned → 0 < control)
    (hgone : stage'.gone = true → control = 0) (hcontrol : control + stage'.implicit ≤ maximum)
    (hphase : after.owner.phase.stage = if index = actor' ∧ stage'.acting = true then some stage' else none)
    (hothers : (stage' = stage ∧ actor' = actor) ∨
      ((stage.acting = true → actor = index) ∧ (stage'.acting = true → actor' = index)))
    (hdestroys : stage'.acting = true → stage'.strong = false → stage'.gone = false → destroyer' = actor')
    (hlifecycle : stage.lifecycle destructor destroyer actor
        ++ lifecycleOf (after.events.map fun event => (index, event))
      = stage'.lifecycle destructor destroyer' actor')
    (hhonest : ∀ event ∈ after.events, event.Honest)
    (hexchanged : ∀ handle count, after.owner.phase = .tryObject handle count →
      0 < count ∧ count < maximum)
    (hfresh : stage'.allocating = true →
      stage.allocating = true ∧ strong = 1 ∧ control = 0 ∧ actor = index ∧ actor' = index) :
    At (object.after index after) stage' destructor destroyer' actor' := by
  have hindex := (List.getElem?_eq_some_iff.mp howner).1
  have hstrongAfter := object.strongReferences_after howner after
  have hcontrolAfter := object.controlReferences_after howner after
  obtain rfl : strong = (object.after index after).strongReferences := by omega
  obtain rfl : control = (object.after index after).controlReferences := by omega
  constructor
  · exact h.metadata
  · exact hheader
  · exact hheld
  · exact hreleased
  · exact hstrong
  · exact horphaned
  · exact hgone
  · exact hcontrol
  · intro other owner' howner'
    by_cases hother : other = index
    · subst hother
      have heq : owner' = after.owner := by
        rw [show (object.after other after).owners = object.owners.set other after.owner from rfl,
          List.getElem?_set_self hindex] at howner'
        exact (Option.some.inj howner').symm
      rw [heq]
      exact hphase
    · have hold : object.owners[other]? = some owner' := by
        rw [show (object.after index after).owners = object.owners.set index after.owner from rfl,
          List.getElem?_set_ne (Ne.symm hother)] at howner'
        exact howner'
      rw [h.phases other owner' hold]
      rcases hothers with ⟨rfl, rfl⟩ | ⟨hactor, hactor'⟩
      · rfl
      · rw [if_neg, if_neg]
        · rintro ⟨rfl, hacting⟩
          exact hother (hactor' hacting)
        · rintro ⟨rfl, hacting⟩
          exact hother (hactor hacting)
  · intro hacting
    show actor' < (object.owners.set index after.owner).length
    rw [List.length_set]
    rcases hothers with ⟨rfl, rfl⟩ | ⟨_, hactor'⟩
    · exact h.there hacting
    · rw [hactor' hacting]
      exact hindex
  · exact hdestroys
  · show lifecycleOf (object.history ++ _) = _
    unfold lifecycleOf at hlifecycle ⊢
    rw [List.filter_append, ← hlifecycle, ← h.lifecycle]
    rfl
  · intro entry hentry
    rcases List.mem_append.mp hentry with hold | hnew
    · exact h.honest entry hold
    · obtain ⟨event, hevent, rfl⟩ := List.mem_map.mp hnew
      exact hhonest event hevent
  · intro owner' howner' handle count hphase'
    rcases List.mem_or_eq_of_mem_set howner' with hold | rfl
    · exact h.exchanged owner' hold handle count hphase'
    · exact hexchanged handle count hphase'
  · intro hallocating
    obtain ⟨hstage, hone, hzero, rfl, rfl⟩ := hfresh hallocating
    refine ⟨hone, hzero, ?_⟩
    intro other owner' howner' hother
    rw [show (object.after actor' after).owners = object.owners.set actor' after.owner from rfl,
      List.getElem?_set_ne (Ne.symm hother)] at howner'
    exact (h.fresh hstage).2.2 other owner' howner' hother

/-- A header that is there is the one of its stage. -/
theorem At.header_eq (hheader : object.header = some header) :
    stage ≠ .freed ∧ header = ⟨stage.state, object.strongReferences,
      object.controlReferences + stage.implicit, destructor, stage.object⟩ := by
  have heq := h.header
  rw [hheader] at heq
  unfold Stage.header at heq
  split at heq
  · cases heq
  · next hstage => exact ⟨hstage, Option.some.inj heq⟩

/-- An owner that may end a stage is the actor of that stage. -/
theorem At.stage_eq (howner : object.owners[index]? = some owner) (hphase : owner.phase.stage = some stage') :
    stage = stage' ∧ actor = index ∧ stage'.acting = true := by
  have heq := h.phases index owner howner
  rw [hphase] at heq
  split at heq
  · next hif =>
    obtain rfl := Option.some.inj heq
    exact ⟨rfl, hif.1.symm, hif.2⟩
  · cases heq

theorem At.counts (hheader : object.header = some header) :
    header.strongCount = object.strongReferences ∧
      header.weakCount = object.controlReferences + stage.implicit := by
  rw [(h.header_eq hheader).2]
  exact ⟨rfl, rfl⟩

/-- A step that keeps the stage and changes only the two counts. -/
theorem At.keep (hheader : object.header = some header)
    (howner : object.owners[index]? = some owner) (hallocated : stage.allocating = false)
    (strong control : Nat) (hS : strong + owner.strongReferences
      = object.strongReferences + after.owner.strongReferences + after.events.countP (· = .ignored))
    (hW : control + owner.controlReferences = object.controlReferences + after.owner.controlReferences)
    (hafter : after.header = some { header with strongCount := strong, weakCount := control + stage.implicit })
    (hheld : stage.strong = true → 0 < strong) (hreleased : stage.strong = false → strong = 0)
    (hstrong : strong ≤ maximum) (horphaned : stage = .orphaned → 0 < control)
    (hgone : stage.gone = true → control = 0) (hcontrol : control + stage.implicit ≤ maximum)
    (hphase : after.owner.phase.stage = owner.phase.stage)
    (hevents : ∀ event ∈ after.events, event.isLifecycle = false ∧ event.Honest)
    (hexchanged : ∀ handle count, after.owner.phase = .tryObject handle count →
      0 < count ∧ count < maximum) :
    At (object.after index after) stage destructor destroyer actor := by
  obtain ⟨hstage, rfl⟩ := h.header_eq hheader
  refine h.step howner strong control hS hW ?_ hheld hreleased hstrong horphaned hgone hcontrol ?_
    (Or.inl ⟨rfl, rfl⟩) h.destroys ?_ (fun event hevent => (hevents event hevent).2) hexchanged ?_
  · rw [hafter, Stage.header, if_neg hstage]
  · rw [hphase]
    exact h.phases index owner howner
  · have hnone : lifecycleOf (after.events.map fun event => (index, event)) = [] := by
      unfold lifecycleOf
      rw [List.filter_eq_nil_iff]
      intro entry hentry
      obtain ⟨event, hevent, rfl⟩ := List.mem_map.mp hentry
      simp [(hevents event hevent).1]
    rw [hnone, List.append_nil]
  · intro hfalse
    rw [hallocated] at hfalse
    cases hfalse

/-- A step to where its owner has the same references. -/
theorem At.quiet (hheader : object.header = some header)
    (howner : object.owners[index]? = some owner) (hallocated : stage.allocating = false) (hafter : after.header = some header)
    (hphase : after.owner.phase.stage = owner.phase.stage)
    (hstrong : after.owner.strongReferences + after.events.countP (· = .ignored) = owner.strongReferences)
    (hcontrol : after.owner.controlReferences = owner.controlReferences)
    (hevents : ∀ event ∈ after.events, event.isLifecycle = false ∧ event.Honest)
    (hexchanged : ∀ handle count, after.owner.phase = .tryObject handle count →
      0 < count ∧ count < maximum) :
    At (object.after index after) stage destructor destroyer actor := by
  refine h.keep hheader howner hallocated object.strongReferences object.controlReferences ?_ ?_ ?_ h.held
    h.released h.strongBound h.orphaned h.gone h.controlBound hphase hevents hexchanged
  · omega
  · rw [hcontrol]
  · rw [hafter, (h.header_eq hheader).2]

end AtStage

/-! ## The operations -/

theorem Object.strongReferences_le (h : object.owners[index]? = some owner) :
    owner.strongReferences ≤ object.strongReferences :=
  (le_sum_map Owner.strongReferences h).trans (Nat.le_add_right _ _)

theorem Object.controlReferences_le (h : object.owners[index]? = some owner) :
    owner.controlReferences ≤ object.controlReferences :=
  le_sum_map Owner.controlReferences h

variable {count : Nat}

theorem fetchSub_eq (hpos : 0 < count) (hle : count ≤ maximum) : fetchSub count = count - 1 := by
  unfold fetchSub maximum at *
  omega

theorem no_events {p : Event → Prop} : ∀ event ∈ ([] : List Event), p event := by
  intro event hevent
  cases hevent

/-- While the object is being allocated, only the allocating owner is busy. -/
theorem At.allocated_of_busy (h : At object stage destructor destroyer actor)
    (howner : object.owners[index]? = some owner) (hstage : owner.phase.stage = none)
    (hbusy : owner.phase ≠ .idle) : stage.allocating = false := by
  by_contra hallocating
  have hallocating' : stage.allocating = true := by simpa using hallocating
  have hacting := Stage.acting_of_allocating hallocating'
  by_cases hactor : index = actor
  · have hphase := h.phases index owner howner
    rw [hstage, if_pos ⟨hactor, hacting⟩] at hphase
    cases hphase
  · exact hbusy ((h.fresh hallocating').2.2 index owner howner hactor)

theorem At.alive_of_strong (h : At object stage destructor destroyer actor)
    (hallocated : stage.allocating = false) (hpos : 0 < object.strongReferences) : stage = .alive := by
  refine Stage.eq_alive ?_ hallocated
  by_contra hnot
  have := h.released (by simpa using hnot)
  omega

section Counted

variable (h : At object stage destructor destroyer actor) (hheader : object.header = some header)
  (howner : object.owners[index]? = some owner)

include h hheader howner

variable {old phase : Phase} {events : List Event} {handle : Handle} {kind : Option Control}

/-- A step to a phase with the same references. -/
theorem At.move {live : LiveChange}
    (hold : owner.phase = old) (hbusy : old.stage = none ∧ old ≠ .idle) (hstage : phase.stage = old.stage)
    (hstrong : phase.strongReferences + events.countP (· = .ignored) = old.strongReferences)
    (hcontrol : phase.controlReferences = old.controlReferences)
    (hevents : ∀ event ∈ events, event.isLifecycle = false ∧ event.Honest)
    (hexchanged : ∀ handle count, phase ≠ .tryObject handle count) :
    At (object.after index ⟨some header, { owner with phase := phase }, events, live⟩) stage destructor
      destroyer actor := by
  subst hold
  refine h.quiet hheader howner (h.allocated_of_busy howner hbusy.1 hbusy.2) rfl hstage ?_ ?_ hevents ?_
  · unfold Owner.strongReferences
    dsimp only
    omega
  · unfold Owner.controlReferences
    dsimp only
    rw [hcontrol]
  · intro handle count hphase
    exact absurd hphase (hexchanged handle count)

/-- `TryRetain` exchanges a count above zero, so the object is not yet destroyed. -/
theorem At.tryExchange (hphase : owner.phase = .tryExchange handle count) (spurious : Bool) :
    At (object.after index (owner.tryExchange header handle count spurious)) stage destructor destroyer
      actor := by
  unfold Owner.tryExchange
  split
  · next hlast =>
    refine h.move hheader howner hphase ⟨rfl, by simp⟩ rfl rfl rfl ?_ ?_
    · intro event hevent
      obtain rfl := List.mem_singleton.mp hevent
      exact ⟨rfl, hlast⟩
    · intro _ _ hfalse
      cases hfalse
  obtain ⟨hstrongCount, hweakCount⟩ := h.counts hheader
  split
  · next hcount hexchange =>
    have hbound := h.strongBound
    have hallocated := h.allocated_of_busy howner (by rw [hphase]; rfl) (by rw [hphase]; simp)
    refine h.keep hheader howner hallocated (count + 1) object.controlReferences ?_ ?_ ?_ ?_ ?_ ?_ h.orphaned h.gone
      h.controlBound ?_ no_events ?_
    · simp only [silent, Owner.strongReferences, hphase, Phase.strongReferences, List.countP_nil]
      omega
    · simp only [silent, Owner.controlReferences, hphase, Phase.controlReferences]
    · rw [← hweakCount]
      rfl
    · intro _
      omega
    · intro hgone
      have := h.released hgone
      omega
    · omega
    · rw [hphase]
      rfl
    · intro handle' count' heq
      cases heq
      omega
  · refine h.move hheader howner hphase ⟨rfl, by simp⟩ rfl rfl rfl no_events ?_
    intro _ _ hfalse
    cases hfalse

/-- `RetainControl` exchanges a count that still has the implicit reference or one of an owner. -/
theorem At.controlExchange {kind : Control}
    (hphase : owner.phase = .controlExchange kind count) (spurious : Bool) :
    At (object.after index (owner.controlExchange header kind count spurious)) stage destructor destroyer
      actor := by
  unfold Owner.controlExchange
  split
  · refine h.move hheader howner hphase ⟨rfl, by simp⟩ rfl rfl rfl no_events ?_
    intro _ _ hfalse
    cases hfalse
  obtain ⟨hstrongCount, hweakCount⟩ := h.counts hheader
  split
  · next hcount hexchange =>
    have hbound := h.controlBound
    have hallocated := h.allocated_of_busy howner (by rw [hphase]; rfl) (by rw [hphase]; simp)
    refine h.keep hheader howner hallocated object.strongReferences (object.controlReferences + 1) ?_ ?_ ?_
      h.held h.released h.strongBound ?_ ?_ ?_ ?_ no_events ?_
    · cases kind <;>
        simp only [silent, Owner.gain, Owner.strongReferences, hphase, Phase.strongReferences, List.countP_nil] <;>
        omega
    · cases kind <;>
        simp only [silent, Owner.gain, Owner.controlReferences, hphase, Phase.controlReferences] <;>
        omega
    · have heq : count + 1 = object.controlReferences + 1 + stage.implicit := by omega
      rw [← heq, ← hstrongCount]
      rfl
    · intro _
      omega
    · intro hgone
      have hnone := h.gone hgone
      have himplicit : stage.implicit = 0 := by
        cases stage <;> first | rfl | cases hgone
      omega
    · omega
    · rw [hphase]
      cases kind <;> rfl
    · intro handle' count' heq
      cases kind <;> cases heq
  · refine h.move hheader howner hphase ⟨rfl, by simp⟩ rfl rfl rfl no_events ?_
    intro _ _ hfalse
    cases hfalse

/-- The last release takes the strong count to zero. -/
theorem At.releaseSub (hphase : owner.phase = .releaseSub) {spurious : Bool}
    (hafter : owner.proceed header spurious = some after) :
    ∃ stage' destroyer' actor', At (object.after index after) stage' destructor destroyer' actor' ∧
      after.live.Moves stage.live stage'.live := by
  obtain ⟨hstrongCount, hweakCount⟩ := h.counts hheader
  have hreference : 1 ≤ object.strongReferences := by
    have hle := Object.strongReferences_le howner
    simp only [Owner.strongReferences, hphase, Phase.strongReferences] at hle
    omega
  have hsub : fetchSub header.strongCount = object.strongReferences - 1 := by
    rw [hstrongCount]
    exact fetchSub_eq hreference h.strongBound
  have hbound := h.strongBound
  have hallocated := h.allocated_of_busy howner (by rw [hphase]; rfl) (by rw [hphase]; simp)
  unfold Owner.proceed at hafter
  rw [hphase] at hafter
  dsimp only at hafter
  split at hafter
  · next hmore =>
    obtain rfl := Option.some.inj hafter
    refine ⟨stage, destroyer, actor, ?_, rfl⟩
    refine h.keep hheader howner hallocated (object.strongReferences - 1) object.controlReferences ?_ ?_ ?_ ?_ ?_ ?_
      h.orphaned h.gone h.controlBound ?_ no_events ?_
    · simp only [silent, Owner.strongReferences, hphase, Phase.strongReferences, List.countP_nil]
      omega
    · simp only [silent, Owner.controlReferences, hphase, Phase.controlReferences]
    · rw [← hweakCount, ← hsub]
      rfl
    · intro _
      omega
    · intro hgone
      have := h.released hgone
      omega
    · omega
    · rw [hphase]
      rfl
    · intro _ _ hfalse
      cases hfalse
  · next hone =>
    have hlast : object.strongReferences = 1 := by omega
    obtain rfl := h.alive_of_strong hallocated hreference
    obtain rfl := Option.some.inj hafter
    have hcontrolBound := h.controlBound
    refine ⟨.claimed, index, index, ?_, rfl⟩
    refine h.step howner 0 object.controlReferences ?_ ?_ ?_ ?_ (fun _ => rfl) (Nat.zero_le _) ?_ ?_
      hcontrolBound ?_ (Or.inr ⟨?_, fun _ => rfl⟩) (fun _ _ _ => rfl) rfl ?_ ?_ ?_
    · simp only [silent, Owner.strongReferences, hphase, Phase.strongReferences]
      simp
      omega
    · simp only [silent, Owner.controlReferences, hphase, Phase.controlReferences]
    · show some { header with strongCount := fetchSub header.strongCount } = _
      rw [hsub, hlast, (h.header_eq hheader).2]
      rfl
    · intro hfalse
      cases hfalse
    · intro hfalse
      cases hfalse
    · intro hfalse
      cases hfalse
    · rw [if_pos ⟨rfl, rfl⟩]
      rfl
    · intro hfalse
      cases hfalse
    · intro event hevent
      obtain rfl := List.mem_singleton.mp hevent
      trivial
    · intro _ _ hfalse
      cases hfalse
    · intro hfalse
      cases hfalse

/-- Before the last reference of the control block is dropped, the object is destroyed. -/
theorem At.last_control (hphase : owner.phase = .controlSub kind) :
    (kind.isSome = true → 1 ≤ object.controlReferences) ∧ (kind = none → stage = .dropping ∧ actor = index) ∧
      (header.weakCount = 1 → (stage = .orphaned ∧ kind.isSome = true) ∨ (stage = .dropping ∧ kind = none)) := by
  have hreference : kind.isSome = true → 1 ≤ object.controlReferences := by
    intro hsome
    have hle := Object.controlReferences_le howner
    obtain ⟨kind, rfl⟩ := Option.isSome_iff_exists.mp hsome
    simp only [Owner.controlReferences, hphase, Phase.controlReferences] at hle
    omega
  have hdropping : kind = none → stage = .dropping ∧ actor = index := by
    rintro rfl
    obtain ⟨hstage, hactor, _⟩ := h.stage_eq howner (by rw [hphase]; rfl)
    exact ⟨hstage, hactor⟩
  refine ⟨hreference, hdropping, ?_⟩
  intro hone
  have hweakCount := (h.counts hheader).2
  cases kind with
  | none =>
      right
      exact ⟨(hdropping rfl).1, rfl⟩
  | some kind =>
      left
      have hle := hreference rfl
      refine ⟨?_, rfl⟩
      have himplicit : stage.implicit = 0 := by omega
      have hgone : stage.gone = false := by
        by_contra hgone
        have := h.gone (by simpa using hgone)
        omega
      exact Stage.eq_orphaned himplicit hgone

/-- A reference is dropped that is not the last one. -/
theorem At.controlSub_more (hphase : owner.phase = .controlSub kind) (hmore : header.weakCount ≠ 1) :
    ∃ stage', At (object.after index (silent { header with weakCount := fetchSub header.weakCount }
      { owner with phase := .idle })) stage' destructor destroyer actor ∧ stage'.live = stage.live := by
  obtain ⟨hstrongCount, hweakCount⟩ := h.counts hheader
  obtain ⟨hreference, hdropping, _⟩ := h.last_control hheader howner hphase
  have hbound := h.controlBound
  cases kind with
  | some kind =>
      have hle := hreference rfl
      have hsub : fetchSub header.weakCount = object.controlReferences - 1 + stage.implicit := by
        rw [fetchSub_eq (by omega) (by omega)]
        omega
      have hallocated := h.allocated_of_busy howner (by rw [hphase]; rfl) (by rw [hphase]; simp)
      refine ⟨stage, ?_, rfl⟩
      refine h.keep hheader howner hallocated object.strongReferences (object.controlReferences - 1) ?_ ?_ ?_
        h.held h.released h.strongBound ?_ ?_ ?_ ?_ no_events ?_
      · simp only [silent, Owner.strongReferences, hphase, Phase.strongReferences, List.countP_nil]
        omega
      · simp only [silent, Owner.controlReferences, hphase, Phase.controlReferences]
        omega
      · rw [← hsub, ← hstrongCount]
        rfl
      · rintro rfl
        have himplicit : Stage.orphaned.implicit = 0 := rfl
        omega
      · intro hgone
        have := h.gone hgone
        omega
      · omega
      · rw [hphase]
        rfl
      · intro _ _ hfalse
        cases hfalse
  | none =>
      obtain ⟨rfl, rfl⟩ := hdropping rfl
      have himplicit : Stage.dropping.implicit = 1 := rfl
      have hsub : fetchSub header.weakCount = object.controlReferences := by
        rw [fetchSub_eq (by omega) (by omega)]
        omega
      refine ⟨.orphaned, ?_, rfl⟩
      refine h.step howner 0 object.controlReferences ?_ ?_ ?_ ?_ (fun _ => rfl) (Nat.zero_le _) ?_ ?_ ?_ ?_
        (Or.inr ⟨fun _ => rfl, ?_⟩) ?_ ?_ no_events ?_ ?_
      · have hnone := h.released rfl
        simp only [silent, Owner.strongReferences, hphase, Phase.strongReferences, List.countP_nil]
        omega
      · simp only [silent, Owner.controlReferences, hphase, Phase.controlReferences]
      · show some { header with weakCount := fetchSub header.weakCount } = _
        rw [hsub, (h.header_eq hheader).2, h.released rfl]
        rfl
      · intro hfalse
        cases hfalse
      · intro _
        omega
      · intro hfalse
        cases hfalse
      · show object.controlReferences + 0 ≤ maximum
        omega
      · rw [if_neg]
        · rfl
        · rintro ⟨_, hfalse⟩
          cases hfalse
      · intro hfalse
        cases hfalse
      · intro hfalse
        cases hfalse
      · show _ ++ [] = _
        rw [List.append_nil]
        rfl
      · intro _ _ hfalse
        cases hfalse
      · intro hfalse
        cases hfalse

/-- The last reference is dropped. -/
theorem At.controlSub_last (hphase : owner.phase = .controlSub kind) (hone : header.weakCount = 1) :
    At (object.after index (silent { header with weakCount := fetchSub header.weakCount }
      { owner with phase := .liveSub })) .reclaiming destructor destroyer index ∧ stage.live = true := by
  obtain ⟨hstrongCount, hweakCount⟩ := h.counts hheader
  obtain ⟨hreference, hdropping, hlast⟩ := h.last_control hheader howner hphase
  have hstage := hlast hone
  have hstrong : stage.strong = false := by
    rcases hstage with ⟨rfl, _⟩ | ⟨rfl, _⟩ <;> rfl
  have hsub : fetchSub header.weakCount = 0 := by
    rw [hone]
    exact fetchSub_eq (by omega) (by unfold maximum; omega)
  have hlive : stage.live = true := by
    rcases hstage with ⟨rfl, _⟩ | ⟨rfl, _⟩ <;> rfl
  refine ⟨?_, hlive⟩
  refine h.step howner 0 0 ?_ ?_ ?_ ?_ (fun _ => rfl) (Nat.zero_le _) ?_ (fun _ => rfl) (Nat.zero_le _) ?_
    (Or.inr ⟨?_, fun _ => rfl⟩) ?_ ?_ no_events ?_ ?_
  · have hnone := h.released hstrong
    simp only [silent, Owner.strongReferences, hphase, Phase.strongReferences, List.countP_nil]
    omega
  · rcases hstage with ⟨rfl, hsome⟩ | ⟨rfl, rfl⟩
    · obtain ⟨kind, rfl⟩ := Option.isSome_iff_exists.mp hsome
      have himplicit : Stage.orphaned.implicit = 0 := rfl
      simp only [silent, Owner.controlReferences, hphase, Phase.controlReferences]
      omega
    · have himplicit : Stage.dropping.implicit = 1 := rfl
      simp only [silent, Owner.controlReferences, hphase, Phase.controlReferences]
      omega
  · show some { header with weakCount := fetchSub header.weakCount } = _
    rw [hsub, (h.header_eq hheader).2, h.released hstrong]
    rcases hstage with ⟨rfl, _⟩ | ⟨rfl, _⟩ <;> rfl
  · intro hfalse
    cases hfalse
  · intro hfalse
    cases hfalse
  · rw [if_pos ⟨rfl, rfl⟩]
    rfl
  · intro hacting
    rcases hstage with ⟨rfl, _⟩ | ⟨rfl, hkind⟩
    · cases hacting
    · exact (hdropping hkind).2
  · intro _ _ hfalse
    cases hfalse
  · show _ ++ [] = _
    rw [List.append_nil]
    rcases hstage with ⟨rfl, _⟩ | ⟨rfl, _⟩ <;> rfl
  · intro _ _ hfalse
    cases hfalse
  · intro hfalse
    cases hfalse

end Counted

/-- The actor moves the object on by a step of its own. -/
theorem At.advance (h : At object stage destructor destroyer actor)
    (howner : object.owners[index]? = some owner) (hstage : owner.phase.stage = some stage)
    (hheader : after.header = stage'.header destructor object.strongReferences object.controlReferences)
    (hstrong : stage'.strong = stage.strong) (hgone : stage'.gone = stage.gone)
    (hkind : stage' ≠ .orphaned) (himplicit : stage'.implicit = stage.implicit)
    (hphase : after.owner.phase.stage = if stage'.acting = true then some stage' else none)
    (hstrongOwner : after.owner.strongReferences + after.events.countP (· = .ignored) = owner.strongReferences)
    (hcontrolOwner : after.owner.controlReferences = owner.controlReferences)
    (hlifecycle : stage.lifecycle destructor destroyer index
        ++ lifecycleOf (after.events.map fun event => (index, event))
      = stage'.lifecycle destructor destroyer index) (hhonest : ∀ event ∈ after.events, event.Honest)
    (hexchanged : ∀ handle count, after.owner.phase ≠ .tryObject handle count)
    (hfresh : stage'.allocating = true → stage.allocating = true) :
    At (object.after index after) stage' destructor destroyer index := by
  obtain ⟨_, rfl, hacting⟩ := h.stage_eq howner hstage
  refine h.step howner object.strongReferences object.controlReferences ?_ ?_ hheader ?_ ?_ h.strongBound
    ?_ ?_ ?_ ?_ (Or.inr ⟨fun _ => rfl, fun _ => rfl⟩) ?_ hlifecycle hhonest ?_ ?_
  · omega
  · rw [hcontrolOwner]
  · rw [hstrong]
    exact h.held
  · rw [hstrong]
    exact h.released
  · intro hfalse
    exact absurd hfalse hkind
  · rw [hgone]
    exact h.gone
  · rw [himplicit]
    exact h.controlBound
  · rw [hphase]
    simp
  · intro _ hnot hstays
    rw [hstrong] at hnot
    rw [hgone] at hstays
    exact h.destroys hacting hnot hstays
  · intro handle count hfalse
    exact absurd hfalse (hexchanged handle count)
  · intro hallocating
    obtain ⟨hone, hzero, _⟩ := h.fresh (hfresh hallocating)
    exact ⟨hfresh hallocating, hone, hzero, rfl, rfl⟩

theorem strongReferences_of_phase {old phase : Phase} (hphase : owner.phase = old) {events : List Event}
    (h : phase.strongReferences + events.countP (· = .ignored) = old.strongReferences) :
    ({ owner with phase := phase } : Owner).strongReferences + events.countP (· = .ignored)
      = owner.strongReferences := by
  subst hphase
  unfold Owner.strongReferences
  dsimp only
  omega

theorem controlReferences_of_phase {old phase : Phase} (hphase : owner.phase = old)
    (h : phase.controlReferences = old.controlReferences) :
    ({ owner with phase := phase } : Owner).controlReferences = owner.controlReferences := by
  subst hphase
  unfold Owner.controlReferences
  rw [h]

/-- A reference of a phase has become a strong handle. -/
theorem strongReferences_of_gain {old : Phase} (hphase : owner.phase = old) (h : old.strongReferences = 1) :
    ({ owner.gain .strong with phase := .idle } : Owner).strongReferences = owner.strongReferences := by
  subst hphase
  unfold Owner.strongReferences
  rw [h]
  rfl

/-- **Every step keeps the stage of the object or moves it on.** -/
theorem At.proceed (h : At object stage destructor destroyer actor) (hheader : object.header = some header)
    (howner : object.owners[index]? = some owner) {spurious : Bool}
    (hafter : owner.proceed header spurious = some after) :
    ∃ stage' destroyer' actor', At (object.after index after) stage' destructor destroyer' actor' ∧
      after.live.Moves stage.live stage'.live := by
  have hheaderEq := (h.header_eq hheader).2
  cases hphase : owner.phase with
  | releaseSub => exact h.releaseSub hheader howner hphase hafter
  | idle =>
      simp only [Owner.proceed, hphase] at hafter
      cases hafter
  | allocateCount =>
      simp only [Owner.proceed, hphase] at hafter
      obtain rfl := Option.some.inj hafter
      have hstage : owner.phase.stage = some .made := by rw [hphase]; rfl
      obtain ⟨rfl, _⟩ := h.stage_eq howner hstage
      refine ⟨.counted, destroyer, index, ?_, rfl, rfl⟩
      refine h.advance howner hstage ?_ rfl rfl (by simp) rfl rfl ?_ ?_ rfl no_events ?_ (fun _ => rfl)
      · rw [hheaderEq]
        rfl
      · exact strongReferences_of_phase hphase rfl
      · exact controlReferences_of_phase hphase rfl
      · intro _ _ hfalse
        cases hfalse
  | allocateStore =>
      simp only [Owner.proceed, hphase] at hafter
      obtain rfl := Option.some.inj hafter
      have hstage : owner.phase.stage = some .counted := by rw [hphase]; rfl
      obtain ⟨rfl, _⟩ := h.stage_eq howner hstage
      refine ⟨.alive, destroyer, index, ?_, rfl⟩
      refine h.advance howner hstage ?_ rfl rfl (by simp) rfl rfl ?_ ?_ rfl no_events ?_ ?_
      · show some { header with object := true } = _
        rw [hheaderEq]
        rfl
      · exact strongReferences_of_gain hphase rfl
      · exact @controlReferences_of_phase owner _ .idle hphase rfl
      · intro _ _ hfalse
        cases hfalse
      · intro hfalse
        cases hfalse
  | tryLoad handle =>
      simp only [Owner.proceed, hphase] at hafter
      obtain rfl := Option.some.inj hafter
      refine ⟨stage, destroyer, actor, ?_, rfl⟩
      refine h.move hheader howner hphase ⟨rfl, by simp⟩ rfl rfl rfl no_events ?_
      intro _ _ hfalse
      cases hfalse
  | tryExchange handle count =>
      simp only [Owner.proceed, hphase] at hafter
      obtain rfl := Option.some.inj hafter
      refine ⟨stage, destroyer, actor, h.tryExchange hheader howner hphase spurious, ?_⟩
      unfold Owner.tryExchange
      split
      · rfl
      split <;> rfl
  | tryObject handle count =>
      -- its own reference shows that the object is alive
      have hallocated := h.allocated_of_busy howner (by rw [hphase]; rfl) (by rw [hphase]; simp)
      have hle := Object.strongReferences_le howner
      simp only [Owner.strongReferences, hphase, Phase.strongReferences] at hle
      obtain rfl := h.alive_of_strong hallocated (by omega)
      have hobject : header.object = true := by rw [hheaderEq]; rfl
      simp only [Owner.proceed, hphase, hobject, if_true] at hafter
      obtain rfl := Option.some.inj hafter
      refine ⟨.alive, destroyer, actor, ?_, rfl⟩
      refine h.quiet hheader howner hallocated rfl ?_ ?_ ?_ ?_ ?_
      · rw [hphase]
        rfl
      · exact strongReferences_of_gain hphase rfl
      · exact @controlReferences_of_phase owner _ .idle hphase rfl
      · intro event hevent
        obtain rfl := List.mem_singleton.mp hevent
        exact ⟨rfl, h.exchanged owner (List.mem_of_getElem? howner) handle count hphase⟩
      · intro _ _ hfalse
        cases hfalse
  | controlLoad kind =>
      simp only [Owner.proceed, hphase] at hafter
      obtain rfl := Option.some.inj hafter
      refine ⟨stage, destroyer, actor, ?_, rfl⟩
      refine h.move hheader howner hphase ⟨rfl, by simp⟩ rfl rfl rfl no_events ?_
      intro _ _ hfalse
      cases hfalse
  | controlExchange kind count =>
      simp only [Owner.proceed, hphase] at hafter
      obtain rfl := Option.some.inj hafter
      refine ⟨stage, destroyer, actor, h.controlExchange hheader howner hphase spurious, ?_⟩
      unfold Owner.controlExchange
      split
      · rfl
      split <;> rfl
  | releaseCheck =>
      simp only [Owner.proceed, hphase] at hafter
      split at hafter
      · obtain rfl := Option.some.inj hafter
        refine ⟨stage, destroyer, actor, ?_, rfl⟩
        refine h.move hheader howner hphase ⟨rfl, by simp⟩ rfl rfl rfl ?_ ?_
        · intro event hevent
          obtain rfl := List.mem_singleton.mp hevent
          exact ⟨rfl, trivial⟩
        · intro _ _ hfalse
          cases hfalse
      · obtain rfl := Option.some.inj hafter
        refine ⟨stage, destroyer, actor, ?_, rfl⟩
        refine h.move hheader howner hphase ⟨rfl, by simp⟩ rfl rfl rfl no_events ?_
        intro _ _ hfalse
        cases hfalse
  | destroyExchange =>
      have hstage : owner.phase.stage = some .claimed := by rw [hphase]; rfl
      obtain ⟨rfl, rfl, _⟩ := h.stage_eq howner hstage
      have halive : header.state = .alive := by rw [hheaderEq]; rfl
      have hdestructor : header.destructor = destructor := by rw [hheaderEq]
      simp only [Owner.proceed, hphase, halive, if_true, hdestructor] at hafter
      obtain rfl := Option.some.inj hafter
      refine ⟨.destructing, destroyer, actor, ?_, rfl⟩
      have hdestroyer := h.destroys rfl rfl rfl
      refine h.advance howner hstage ?_ rfl rfl (by simp) rfl rfl ?_ ?_ ?_ ?_ ?_ ?_
      · show some { header with state := .destroying, destructor := destructor } = _
        rw [hheaderEq]
        rfl
      · cases destructor <;> exact strongReferences_of_phase hphase rfl
      · exact controlReferences_of_phase hphase rfl
      · rw [hdestroyer]
        cases destructor <;> rfl
      · intro event hevent
        cases destructor
        · cases hevent
        · obtain rfl := List.mem_singleton.mp hevent
          trivial
      · intro _ _ hfalse
        cases hfalse
      · intro hfalse
        cases hfalse
  | destructing =>
      have hstage : owner.phase.stage = some .destructing := by rw [hphase]; rfl
      obtain ⟨rfl, rfl, _⟩ := h.stage_eq howner hstage
      have hdestructor : header.destructor = destructor := by rw [hheaderEq]
      simp only [Owner.proceed, hphase, hdestructor] at hafter
      obtain rfl := Option.some.inj hafter
      refine ⟨.clearing, destroyer, actor, ?_, rfl⟩
      have hdestroyer := h.destroys rfl rfl rfl
      refine h.advance howner hstage ?_ rfl rfl (by simp) rfl rfl ?_ ?_ ?_ ?_ ?_ ?_
      · show some header = _
        rw [hheaderEq]
        rfl
      · cases destructor <;> exact strongReferences_of_phase hphase rfl
      · exact controlReferences_of_phase hphase rfl
      · rw [hdestroyer]
        cases destructor <;> rfl
      · intro event hevent
        cases destructor
        · cases hevent
        · obtain rfl := List.mem_singleton.mp hevent
          trivial
      · intro _ _ hfalse
        cases hfalse
      · intro hfalse
        cases hfalse
  | clearObject =>
      simp only [Owner.proceed, hphase] at hafter
      obtain rfl := Option.some.inj hafter
      have hstage : owner.phase.stage = some .clearing := by rw [hphase]; rfl
      obtain ⟨rfl, rfl, _⟩ := h.stage_eq howner hstage
      refine ⟨.marking, destroyer, actor, ?_, rfl⟩
      refine h.advance howner hstage ?_ rfl rfl (by simp) rfl rfl ?_ ?_ ?_ no_events ?_ ?_
      · show some { header with object := false } = _
        rw [hheaderEq]
        rfl
      · exact strongReferences_of_phase hphase rfl
      · exact controlReferences_of_phase hphase rfl
      · exact List.append_nil _
      · intro _ _ hfalse
        cases hfalse
      · intro hfalse
        cases hfalse
  | markDestroyed =>
      simp only [Owner.proceed, hphase] at hafter
      obtain rfl := Option.some.inj hafter
      have hstage : owner.phase.stage = some .marking := by rw [hphase]; rfl
      obtain ⟨rfl, rfl, _⟩ := h.stage_eq howner hstage
      refine ⟨.dropping, destroyer, actor, ?_, rfl⟩
      refine h.advance howner hstage ?_ rfl rfl (by simp) rfl rfl ?_ ?_ ?_ no_events ?_ ?_
      · show some { header with state := .destroyed } = _
        rw [hheaderEq]
        rfl
      · exact strongReferences_of_phase hphase rfl
      · exact controlReferences_of_phase hphase rfl
      · exact List.append_nil _
      · intro _ _ hfalse
        cases hfalse
      · intro hfalse
        cases hfalse
  | controlSub kind =>
      simp only [Owner.proceed, hphase] at hafter
      split at hafter
      · next hmore =>
        obtain rfl := Option.some.inj hafter
        obtain ⟨stage', hat, hlive⟩ := h.controlSub_more hheader howner hphase hmore
        exact ⟨stage', destroyer, actor, hat, hlive⟩
      · next hone =>
        obtain rfl := Option.some.inj hafter
        obtain ⟨hat, hlive⟩ := h.controlSub_last hheader howner hphase (by simpa using hone)
        exact ⟨.reclaiming, destroyer, index, hat, hlive.symm⟩
  | liveSub =>
      simp only [Owner.proceed, hphase] at hafter
      obtain rfl := Option.some.inj hafter
      have hstage : owner.phase.stage = some .reclaiming := by rw [hphase]; rfl
      obtain ⟨rfl, rfl, _⟩ := h.stage_eq howner hstage
      refine ⟨.freeing, destroyer, actor, ?_, rfl, rfl⟩
      refine h.advance howner hstage ?_ rfl rfl (by simp) rfl rfl ?_ ?_ ?_ no_events ?_ ?_
      · show some header = _
        rw [hheaderEq]
        rfl
      · exact strongReferences_of_phase hphase rfl
      · exact controlReferences_of_phase hphase rfl
      · exact List.append_nil _
      · intro _ _ hfalse
        cases hfalse
      · intro hfalse
        cases hfalse
  | free =>
      simp only [Owner.proceed, hphase] at hafter
      obtain rfl := Option.some.inj hafter
      have hstage : owner.phase.stage = some .freeing := by rw [hphase]; rfl
      obtain ⟨rfl, rfl, _⟩ := h.stage_eq howner hstage
      refine ⟨.freed, destroyer, actor, ?_, rfl⟩
      refine h.advance howner hstage rfl rfl rfl (by simp) rfl rfl ?_ ?_ rfl ?_ ?_ ?_
      · exact strongReferences_of_phase hphase rfl
      · exact controlReferences_of_phase hphase rfl
      · intro event hevent
        obtain rfl := List.mem_singleton.mp hevent
        trivial
      · intro _ _ hfalse
        cases hfalse
      · intro hfalse
        cases hfalse

/-! ## The steps between the operations -/

/-- The owners may change as long as their references are as many as before. -/
theorem At.reown (h : At object stage destructor destroyer actor) {owners : List Owner}
    (hS : (owners.map Owner.strongReferences).sum = (object.owners.map Owner.strongReferences).sum)
    (hW : (owners.map Owner.controlReferences).sum = (object.owners.map Owner.controlReferences).sum)
    (hlength : object.owners.length ≤ owners.length) (hphases : ∀ index owner', owners[index]? = some owner' →
      (∃ owner, object.owners[index]? = some owner ∧ owner'.phase.stage = owner.phase.stage ∧
          (∀ handle count, owner'.phase = .tryObject handle count → owner.phase = .tryObject handle count) ∧
          (stage.allocating = true → owner.phase = .idle → owner'.phase = .idle)) ∨
        (object.owners.length ≤ index ∧ owner'.phase = .idle)) :
    At { object with owners := owners } stage destructor destroyer actor := by
  have hstrong : Object.strongReferences { object with owners := owners } = object.strongReferences := by
    unfold Object.strongReferences
    rw [hS]
  have hcontrol : Object.controlReferences { object with owners := owners } = object.controlReferences := by
    unfold Object.controlReferences
    rw [hW]
  constructor
  · exact h.metadata
  · rw [hstrong, hcontrol]
    exact h.header
  · rw [hstrong]
    exact h.held
  · rw [hstrong]
    exact h.released
  · rw [hstrong]
    exact h.strongBound
  · rw [hcontrol]
    exact h.orphaned
  · rw [hcontrol]
    exact h.gone
  · rw [hcontrol]
    exact h.controlBound
  · intro index owner' howner'
    rcases hphases index owner' howner' with ⟨owner, howner, hstage, _⟩ | ⟨hnew, hidle⟩
    · rw [hstage]
      exact h.phases index owner howner
    · rw [hidle, if_neg]
      · rfl
      · rintro ⟨rfl, hacting⟩
        have := h.there hacting
        omega
  · intro hacting
    exact lt_of_lt_of_le (h.there hacting) hlength
  · exact h.destroys
  · exact h.lifecycle
  · exact h.honest
  · intro owner' howner' handle count hphase
    obtain ⟨index, hindex⟩ := List.mem_iff_getElem?.mp howner'
    rcases hphases index owner' hindex with ⟨owner, howner, _, hexchanged, _⟩ | ⟨_, hidle⟩
    · exact h.exchanged owner (List.mem_of_getElem? howner) handle count (hexchanged handle count hphase)
    · rw [hidle] at hphase
      cases hphase
  · intro hallocating
    obtain ⟨hone, hzero, hidle⟩ := h.fresh hallocating
    rw [hstrong, hcontrol]
    refine ⟨hone, hzero, ?_⟩
    intro index owner' howner' hindex
    rcases hphases index owner' howner' with ⟨owner, howner, _, _, hstays⟩ | ⟨_, hnew⟩
    · exact hstays hallocating (hidle index owner howner hindex)
    · exact hnew

/-- The allocating owner has the only reference. -/
theorem Phase.strongReferences_of_allocating {phase : Phase} (h : phase.stage = some stage)
    (hallocating : stage.allocating = true) : phase.strongReferences = 1 := by
  unfold Phase.stage at h
  split at h <;> cases h <;> first | rfl | cases hallocating

/-- While the object is being allocated, no idle owner has a handle. -/
theorem At.allocated_of_held (h : At object stage destructor destroyer actor)
    (howner : object.owners[index]? = some owner) (hidle : owner.phase = .idle)
    (hheld : 0 < owner.strong + owner.weak + owner.unowned) : stage.allocating = false := by
  by_contra hnot
  have hallocating : stage.allocating = true := by simpa using hnot
  obtain ⟨hone, hzero, _⟩ := h.fresh hallocating
  have hacting := Stage.acting_of_allocating hallocating
  obtain ⟨allocator, hallocator⟩ : ∃ allocator, object.owners[actor]? = some allocator :=
    ⟨_, List.getElem?_eq_getElem (h.there hacting)⟩
  have hphase := h.phases actor _ hallocator
  rw [if_pos ⟨rfl, hacting⟩] at hphase
  have hother : index ≠ actor := by
    rintro rfl
    rw [howner] at hallocator
    rw [← Option.some.inj hallocator, hidle] at hphase
    cases hphase
  have hsum := add_le_sum_map Owner.strongReferences hother howner hallocator
  have hcontrol := Object.controlReferences_le howner
  have hreference := Phase.strongReferences_of_allocating hphase hallocating
  simp only [Owner.strongReferences, Owner.controlReferences, hidle, hreference] at hsum hcontrol
  unfold Object.strongReferences at hone
  omega

theorem Owner.begin_spec {operation : Operation} {owner' : Owner} (h : owner.begin operation = some owner') :
    owner.phase = .idle ∧ 0 < owner.strong + owner.weak + owner.unowned ∧ owner'.phase.stage = none ∧
      (∀ handle count, owner'.phase ≠ .tryObject handle count) ∧
      owner'.strongReferences = owner.strongReferences ∧
      owner'.controlReferences = owner.controlReferences := by
  unfold Owner.begin at h
  split at h
  · cases h
  next hbusy =>
    have hidle : owner.phase = .idle := by simpa using hbusy
    refine ⟨hidle, ?_⟩
    unfold Owner.strongReferences Owner.controlReferences
    rw [hidle]
    rcases operation with (_ | _ | _) | kind | (_ | _) | (_ | _ | _) <;> dsimp only at h <;> split at h
    all_goals first
      | (cases h; done)
      | obtain rfl := Option.some.inj h
    all_goals
      simp_all [Owner.held, Owner.lose, Phase.stage, Phase.strongReferences, Phase.controlReferences]
    all_goals omega

/-- The beginning of an operation keeps the stage. -/
theorem At.begin (h : At object stage destructor destroyer actor) {operation : Operation} {object' : Object}
    (hbegin : object.begin index operation = some object') : At object' stage destructor destroyer actor := by
  unfold Object.begin at hbegin
  rw [Option.bind_eq_bind, Option.bind_eq_some_iff] at hbegin
  obtain ⟨owner, howner, hbegin⟩ := hbegin
  rw [Option.bind_eq_some_iff] at hbegin
  obtain ⟨owner', howner', heq⟩ := hbegin
  obtain rfl := Option.some.inj heq
  obtain ⟨hidle, hheld, hstage, hexchanged, hstrong, hcontrol⟩ := Owner.begin_spec howner'
  have hallocated := h.allocated_of_held howner hidle hheld
  have hS := sum_map_set Owner.strongReferences howner owner'
  have hW := sum_map_set Owner.controlReferences howner owner'
  refine h.reown (by omega) (by omega) (by rw [List.length_set]) ?_
  intro other owner'' howner''
  left
  by_cases hother : other = index
  · subst hother
    rw [List.getElem?_set_self (List.getElem?_eq_some_iff.mp howner).1] at howner''
    obtain rfl := Option.some.inj howner''
    refine ⟨owner, howner, ?_, ?_, ?_⟩
    · rw [hstage, hidle]
      rfl
    · intro handle count hphase
      exact absurd hphase (hexchanged handle count)
    · intro hfalse
      rw [hallocated] at hfalse
      cases hfalse
  · rw [List.getElem?_set_ne (Ne.symm hother)] at howner''
    exact ⟨owner'', howner'', rfl, fun _ _ h => h, fun _ h => h⟩

theorem Owner.references_lose {handle : Handle} (hheld : owner.held handle ≠ 0) (taker : Owner) :
    (owner.lose handle).strongReferences + (taker.gain handle).strongReferences
        = owner.strongReferences + taker.strongReferences ∧
      (owner.lose handle).controlReferences + (taker.gain handle).controlReferences
        = owner.controlReferences + taker.controlReferences := by
  have hpos : 0 < owner.held handle := Nat.pos_of_ne_zero hheld
  unfold Owner.strongReferences Owner.controlReferences
  rcases handle with _ | (_ | _)
  all_goals
    change 0 < _ at hpos
    dsimp only [Owner.held] at hpos
    dsimp only [Owner.lose, Owner.gain]
    constructor
    · omega
    · omega

theorem Owner.phase_lose (owner : Owner) (handle : Handle) : (owner.lose handle).phase = owner.phase := by
  rcases handle with _ | (_ | _) <;> rfl

theorem Owner.phase_gain (owner : Owner) (handle : Handle) : (owner.gain handle).phase = owner.phase := by
  rcases handle with _ | (_ | _) <;> rfl

/-- A handle that goes to another owner stays a reference. -/
theorem At.handOver (h : At object stage destructor destroyer actor) {source target : Nat} {handle : Handle}
    {object' : Object} (hgive : object.handOver source target handle = some object') :
    At object' stage destructor destroyer actor := by
  unfold Object.handOver at hgive
  rw [Option.bind_eq_bind, Option.bind_eq_some_iff] at hgive
  obtain ⟨giver, hgiver, hgive⟩ := hgive
  rw [Option.bind_eq_some_iff] at hgive
  obtain ⟨taker, htaker, hgive⟩ := hgive
  split at hgive
  · cases hgive
  next hgives =>
    obtain rfl := Option.some.inj hgive
    push Not at hgives
    obtain ⟨_, hheld, hne⟩ := hgives
    have htaker' : (object.owners.set source (giver.lose handle))[target]? = some taker := by
      rw [List.getElem?_set_ne hne]
      exact htaker
    obtain ⟨hstrong, hcontrol⟩ := Owner.references_lose hheld taker
    have hS := sum_map_set Owner.strongReferences hgiver (giver.lose handle)
    have hS' := sum_map_set Owner.strongReferences htaker' (taker.gain handle)
    have hW := sum_map_set Owner.controlReferences hgiver (giver.lose handle)
    have hW' := sum_map_set Owner.controlReferences htaker' (taker.gain handle)
    refine h.reown (by omega) (by omega) (by rw [List.length_set, List.length_set]) ?_
    intro index owner' howner'
    left
    -- no phase changes
    have hphase : ∃ owner, object.owners[index]? = some owner ∧ owner'.phase = owner.phase := by
      by_cases htarget : index = target
      · subst htarget
        rw [List.getElem?_set_self (List.getElem?_eq_some_iff.mp htaker').1] at howner'
        obtain rfl := Option.some.inj howner'
        exact ⟨taker, htaker, taker.phase_gain handle⟩
      · rw [List.getElem?_set_ne (Ne.symm htarget)] at howner'
        by_cases hsource : index = source
        · subst hsource
          rw [List.getElem?_set_self (List.getElem?_eq_some_iff.mp hgiver).1] at howner'
          obtain rfl := Option.some.inj howner'
          exact ⟨giver, hgiver, giver.phase_lose handle⟩
        · rw [List.getElem?_set_ne (Ne.symm hsource)] at howner'
          exact ⟨owner', howner', rfl⟩
    obtain ⟨owner, howner, heq⟩ := hphase
    refine ⟨owner, howner, ?_, ?_, ?_⟩
    · rw [heq]
    · intro handle count hexchanged
      rw [← heq]
      exact hexchanged
    · intro _ hidle
      rw [heq]
      exact hidle

theorem At.join (h : At object stage destructor destroyer actor) :
    At object.join stage destructor destroyer actor := by
  refine h.reown ?_ ?_ ?_ ?_
  · rw [List.map_append, List.sum_append]
    rfl
  · rw [List.map_append, List.sum_append]
    rfl
  · rw [List.length_append]
    omega
  · intro index owner' howner'
    by_cases hlt : index < object.owners.length
    · left
      rw [List.getElem?_append_left hlt] at howner'
      exact ⟨owner', howner', rfl, fun _ _ h => h, fun _ h => h⟩
    · right
      rw [List.getElem?_append_right (by omega)] at howner'
      obtain rfl := List.mem_singleton.mp (List.mem_of_getElem? howner')
      exact ⟨by omega, rfl⟩

theorem allocated_at (destructor : Bool) : At (Object.allocated destructor) .made destructor 0 0 := by
  have hone : (Object.allocated destructor).strongReferences = 1 := rfl
  have hzero : (Object.allocated destructor).controlReferences = 0 := rfl
  have honly : ∀ index owner, (Object.allocated destructor).owners[index]? = some owner →
      index = 0 ∧ owner = ⟨0, 0, 0, .allocateCount⟩ := by
    intro index owner howner
    have hlt := (List.getElem?_eq_some_iff.mp howner).1
    have hindex : index = 0 := by
      have : index < 1 := hlt
      omega
    subst hindex
    exact ⟨rfl, (Option.some.inj howner).symm⟩
  constructor
  · rfl
  · rfl
  · intro _
    rw [hone]
    exact Nat.one_pos
  · intro hfalse
    cases hfalse
  · rw [hone]
    unfold maximum
    omega
  · intro hfalse
    cases hfalse
  · intro hfalse
    cases hfalse
  · rw [hzero]
    show 0 + 1 ≤ maximum
    unfold maximum
    omega
  · intro index owner howner
    obtain ⟨rfl, rfl⟩ := honly index owner howner
    rfl
  · intro _
    exact Nat.one_pos
  · intro _ hfalse
    cases hfalse
  · rfl
  · intro entry hentry
    cases hentry
  · intro owner howner handle count hphase
    rw [List.mem_singleton.mp howner] at hphase
    cases hphase
  · intro _
    refine ⟨hone, hzero, ?_⟩
    intro index owner howner hindex
    exact absurd (honly index owner howner).1 hindex

end Steps

end Tala.Runtime.Aarc
