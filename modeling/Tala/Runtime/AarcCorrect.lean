import Mathlib.Data.Prod.Lex
import Mathlib.Order.OrderIsoNat
import Tala.Runtime.AarcFacts

/-!
# `Runtime.AarcCorrect` — the objects of every heap that is reached

`Object.Correct` says what reference counting is for, without the stages. `At` implies it, once it is known
that an owner in a retain holds the handle it retains through (`Owner.Holding`). Both are kept by every
step of the heap, and so is the count of the live allocations. Operations under way complete in whatever
order their steps are taken (`operations_complete`).
-/

namespace Tala.Runtime.Aarc

/-! ## What is correct -/

/-- The whole life of an object: the release that takes the strong count to zero runs the destructor, and
some owner frees the header. -/
def life (destructor : Bool) (destroyer reclaimer : Nat) : List (Nat × Event) :=
  ((destroyer, .zeroed) ::
    if destructor then [(destroyer, .destructorBegins), (destroyer, .destructorEnds)] else [])
    ++ [(reclaimer, .freed)]

namespace Object

/-- No owner is in an operation. -/
def Settled (object : Object) : Prop := ∀ owner ∈ object.owners, owner.phase = .idle

/-- The implicit reference of the control block: it is there until the owner that has destroyed the object
drops it. -/
def implicit (object : Object) : Nat :=
  if (object.header.all fun header => header.state = .destroyed)
      && object.owners.all fun owner => owner.phase ≠ .controlSub none then 0
  else 1

/-- Counted among the live allocations: the header is there, and its owner is neither about to count it nor
about to free it. -/
def isCounted (object : Object) : Bool :=
  object.header.isSome && object.owners.all fun owner =>
    owner.phase ≠ .allocateCount && owner.phase ≠ .free

structure Correct (object : Object) : Prop where
  /-- Nothing of the life happens twice, or before what comes first. -/
  lifecycle : ∃ destroyer reclaimer,
    lifecycleOf object.history <+: life object.destructor destroyer reclaimer
  strongCount : ∀ header, object.header = some header → header.strongCount = object.strongReferences
  weakCount : ∀ header, object.header = some header →
    header.weakCount = object.controlReferences + object.implicit
  /-- No strong handle is left when the destructor runs, and none comes back. -/
  zeroed : ∀ index, (index, Event.zeroed) ∈ object.history → ∀ owner ∈ object.owners, owner.strong = 0
  destroyed : object.Settled → object.strongReferences = 0 → ∃ destroyer,
    (destroyer, Event.zeroed) ∈ object.history ∧
      (object.destructor = true → (destroyer, Event.destructorEnds) ∈ object.history)
  freed : object.header = none ↔ ∃ index, (index, Event.freed) ∈ object.history
  /-- A header that is freed has no handle left, and no operation is on its way to it. -/
  last : object.header = none → ∀ owner ∈ object.owners, owner = ⟨0, 0, 0, .idle⟩
  reclaimed : object.Settled → object.strongReferences = 0 → object.controlReferences = 0 →
    object.header = none
  honest : ∀ entry ∈ object.history, entry.2.Honest
  /-- Every operation under way has its next step, on a header that is there. -/
  progress : ∀ index owner, object.owners[index]? = some owner → owner.phase ≠ .idle →
    ∀ spurious, (object.proceed index spurious).isSome = true

end Object

/-! ## Handles under way -/

/-- An owner in a retain holds the handle it retains through. -/
def Owner.Holding (owner : Owner) : Prop :=
  match owner.phase with
  | .tryLoad handle | .tryExchange handle _ | .tryObject handle _ => 0 < owner.held handle
  | .controlLoad kind | .controlExchange kind _ => 0 < owner.strong + owner.held (.control kind)
  | .idle | .allocateCount | .allocateStore | .releaseCheck | .releaseSub | .destroyExchange
  | .destructing | .clearObject | .markDestroyed | .controlSub _ | .liveSub | .free => True

section Holding

variable {owner owner' : Owner} {header : ObjectHeader}

theorem Owner.Holding.of_idle (h : owner.phase = .idle) : owner.Holding := by
  unfold Owner.Holding
  rw [h]
  trivial

theorem Owner.Holding.begin {operation : Operation} (h : owner.begin operation = some owner') :
    owner'.Holding := by
  unfold Owner.begin at h
  split at h
  · cases h
  rcases operation with handle | kind | kind | (_ | kind) <;> dsimp only at h <;> split at h
  all_goals first
    | (cases h; done)
    | obtain rfl := Option.some.inj h
  · next hheld => exact Nat.pos_of_ne_zero hheld
  · next hheld => exact Nat.add_pos_left (Nat.pos_of_ne_zero hheld) _
  · next hheld => exact Nat.add_pos_right _ (Nat.pos_of_ne_zero hheld)
  · trivial
  · trivial

theorem Owner.Holding.proceed (h : owner.Holding) {spurious : Bool} {after : After}
    (hafter : owner.proceed header spurious = some after) : after.owner.Holding := by
  unfold Owner.Holding at h
  unfold Owner.proceed Owner.tryExchange Owner.controlExchange at hafter
  cases hphase : owner.phase with
  | idle =>
      rw [hphase] at hafter
      cases hafter
  | controlExchange kind count =>
      rw [hphase] at h hafter
      dsimp only at h hafter
      obtain rfl := Option.some.inj hafter
      split
      · exact .of_idle rfl
      split
      · apply Owner.Holding.of_idle
        cases kind <;> rfl
      · exact h
  | tryExchange handle count =>
      rw [hphase] at h hafter
      dsimp only at h hafter
      obtain rfl := Option.some.inj hafter
      split
      · exact .of_idle rfl
      split
      · exact h
      · exact h
  | tryLoad _ | controlLoad _ | allocateCount | allocateStore | tryObject _ _ | releaseCheck | releaseSub
  | destroyExchange | destructing | clearObject | markDestroyed | controlSub _ | liveSub | free =>
      rw [hphase] at h hafter
      dsimp only at h hafter
      try split at hafter
      all_goals
        obtain rfl := Option.some.inj hafter
        first
          | exact h
          | trivial

theorem Owner.Holding.gain (h : owner.Holding) (handle : Handle) : (owner.gain handle).Holding := by
  have hmore : ∀ other, owner.held other ≤ (owner.gain handle).held other := by
    intro other
    rcases handle with _ | (_ | _) <;> rcases other with _ | (_ | _) <;>
      simp [Owner.held, Owner.gain]
  have hstrong := hmore .strong
  unfold Owner.Holding at h ⊢
  rw [owner.phase_gain handle]
  split at h
  · exact lt_of_lt_of_le h (hmore _)
  · exact lt_of_lt_of_le h (hmore _)
  · exact lt_of_lt_of_le h (hmore _)
  · next kind _ => exact lt_of_lt_of_le h (Nat.add_le_add hstrong (hmore (.control kind)))
  · next kind _ _ => exact lt_of_lt_of_le h (Nat.add_le_add hstrong (hmore (.control kind)))
  all_goals trivial

/-- An owner with no references has no handles and is in no operation, unless it is to end a stage. -/
theorem Owner.Holding.eq_idle (h : owner.Holding) (hstage : owner.phase.stage = none)
    (hstrong : owner.strongReferences = 0) (hcontrol : owner.controlReferences = 0) :
    owner = ⟨0, 0, 0, .idle⟩ := by
  obtain ⟨strong, weak, unowned, phase⟩ := owner
  simp only [Owner.strongReferences, Owner.controlReferences, Nat.add_eq_zero_iff] at hstrong hcontrol
  obtain ⟨rfl, hphaseStrong⟩ := hstrong
  obtain ⟨⟨rfl, rfl⟩, hphaseControl⟩ := hcontrol
  have hnothing : ∀ handle, Owner.held ⟨0, 0, 0, phase⟩ handle = 0 := by
    rintro (_ | (_ | _)) <;> rfl
  unfold Owner.Holding at h
  dsimp only at hstage hphaseStrong hphaseControl h
  cases phase with
  | idle => rfl
  | tryLoad handle | tryExchange handle _ | tryObject handle _ =>
      have := hnothing handle
      dsimp only at h
      omega
  | controlLoad kind | controlExchange kind _ =>
      have := hnothing (.control kind)
      dsimp only at h
      omega
  | controlSub kind =>
      cases kind with
      | none => cases hstage
      | some kind => cases hphaseControl
  | releaseCheck | releaseSub => cases hphaseStrong
  | allocateCount | allocateStore | destroyExchange | destructing | clearObject | markDestroyed | liveSub
  | free => cases hstage

end Holding

/-! ## What the stages say -/

namespace Stage

theorem lifecycle_prefix (stage : Stage) (destructor : Bool) (destroyer actor : Nat) :
    stage.lifecycle destructor destroyer actor <+: life destructor destroyer actor := by
  cases stage <;> cases destructor <;> simp [lifecycle, life]

variable {stage : Stage} {destructor : Bool} {index : Nat}

theorem zeroed_mem {destroyer actor : Nat}
    (h : (index, Event.zeroed) ∈ stage.lifecycle destructor destroyer actor) : stage.strong = false := by
  cases stage <;> first | rfl | cases h

theorem freed_mem {destroyer actor : Nat}
    (h : (index, Event.freed) ∈ stage.lifecycle destructor destroyer actor) : stage = freed := by
  cases stage <;> cases destructor <;> simp [lifecycle] at h ⊢

/-- When no owner acts and no strong reference is left, the destructor has ended. -/
theorem destroyed_mem (hacting : stage.acting = false) (hstrong : stage.strong = false)
    (destructor : Bool) (destroyer actor : Nat) :
    (destroyer, Event.zeroed) ∈ stage.lifecycle destructor destroyer actor ∧
      (destructor = true → (destroyer, Event.destructorEnds) ∈ stage.lifecycle destructor destroyer actor) := by
  cases stage <;> cases hacting <;> cases hstrong <;> cases destructor <;> simp [lifecycle]

end Stage

theorem mem_lifecycleOf {history : List (Nat × Event)} {index : Nat} {event : Event}
    (h : event.isLifecycle = true) : (index, event) ∈ lifecycleOf history ↔ (index, event) ∈ history := by
  unfold lifecycleOf
  rw [List.mem_filter]
  exact ⟨fun hboth => hboth.1, fun hmem => ⟨hmem, h⟩⟩

section Correct

variable {object : Object} {stage : Stage} {destroyer actor : Nat} {destructor : Bool}

section AtStage

variable (h : At object stage destructor destroyer actor)

include h

theorem At.header_none : object.header = none ↔ stage = .freed := by
  rw [h.header, Stage.header]
  split
  · next hfreed => exact ⟨fun _ => hfreed, fun _ => rfl⟩
  · next hfreed =>
    constructor
    · intro hnone
      cases hnone
    · intro heq
      exact absurd heq hfreed

/-- The owner that is to end the stage. -/
theorem At.actor_owner (hacting : stage.acting = true) :
    ∃ owner ∈ object.owners, owner.phase.stage = some stage := by
  have howner := List.getElem?_eq_getElem (h.there hacting)
  have hphase := h.phases actor _ howner
  rw [if_pos ⟨rfl, hacting⟩] at hphase
  exact ⟨_, List.mem_of_getElem? howner, hphase⟩

/-- Nobody is in a phase of another stage. -/
theorem At.stage_of_mem {owner : Owner}
    (howner : owner ∈ object.owners) {other : Stage} (hphase : owner.phase.stage = some other) :
    stage = other := by
  obtain ⟨index, hindex⟩ := List.mem_iff_getElem?.mp howner
  exact (h.stage_eq hindex hphase).1

theorem At.not_acting (hsettled : object.Settled) : stage.acting = false := by
  by_contra hnot
  obtain ⟨owner, howner, hphase⟩ := h.actor_owner (by simpa using hnot)
  rw [hsettled owner howner] at hphase
  cases hphase

theorem At.not_strong (hzero : object.strongReferences = 0) : stage.strong = false := by
  by_contra hnot
  have := h.held (by simpa using hnot)
  omega

end AtStage

theorem Phase.eq_of_stage {phase other : Phase} {stage : Stage} (h : phase.stage = some stage)
    (hother : other.stage = some stage) : phase = other := by
  unfold Phase.stage at h hother
  split at h <;> cases h <;> split at hother <;> first | rfl | cases hother

/-- Some owner is in the phase that ends a stage if and only if the object is at that stage. -/
theorem At.all_ne (h : At object stage destructor destroyer actor) {phase : Phase} {ends : Stage}
    (hphase : phase.stage = some ends) (hacting : ends.acting = true) :
    (object.owners.all fun owner => owner.phase ≠ phase) = true ↔ stage ≠ ends := by
  rw [List.all_eq_true]
  constructor
  · rintro hnone rfl
    obtain ⟨owner, howner, hends⟩ := h.actor_owner hacting
    have hne : owner.phase ≠ phase := by simpa using hnone owner howner
    exact hne (Phase.eq_of_stage hends hphase)
  · intro hne owner howner
    simp only [decide_eq_true_eq]
    rintro rfl
    exact hne (h.stage_of_mem howner hphase)

theorem At.implicit_eq (h : At object stage destructor destroyer actor) (hthere : stage ≠ .freed) :
    object.implicit = stage.implicit := by
  have hdropping := @At.all_ne object stage destroyer actor destructor h (.controlSub none) .dropping rfl rfl
  have hstate : (object.header.all fun header => header.state = .destroyed)
      = decide (stage.state = .destroyed) := by
    rw [h.header, Stage.header, if_neg hthere]
    rfl
  unfold Object.implicit
  rw [hstate]
  by_cases heq : stage = .dropping
  · rw [Bool.eq_false_iff.mpr fun hall => hdropping.mp hall heq, Bool.and_false, heq]
    rfl
  · rw [hdropping.mpr heq]
    revert heq
    cases stage <;> decide

theorem At.isCounted_eq (h : At object stage destructor destroyer actor) : object.isCounted = stage.live := by
  have hmade := @At.all_ne object stage destroyer actor destructor h .allocateCount .made rfl rfl
  have hfreeing := @At.all_ne object stage destroyer actor destructor h .free .freeing rfl rfl
  have hboth : (object.owners.all fun owner => owner.phase ≠ .allocateCount && owner.phase ≠ .free)
      = decide (stage ≠ .made ∧ stage ≠ .freeing) := by
    rw [Bool.eq_iff_iff, decide_eq_true_eq, ← hmade, ← hfreeing]
    simp only [List.all_eq_true, Bool.and_eq_true, ← forall_and]
  unfold Object.isCounted
  rw [hboth, h.header, Stage.header]
  cases stage <;> rfl

theorem Owner.proceed_isSome (header : ObjectHeader) (owner : Owner) (hbusy : owner.phase ≠ .idle)
    (spurious : Bool) : (owner.proceed header spurious).isSome = true := by
  unfold Owner.proceed
  split
  · next hidle => exact absurd hidle hbusy
  all_goals
    try dsimp only
    try split
    all_goals rfl

/-- The stages are correct. -/
theorem At.correct (h : At object stage object.destructor destroyer actor)
    (hholding : ∀ owner ∈ object.owners, owner.Holding) : object.Correct := by
  have hzeroed : ∀ index, (index, Event.zeroed) ∈ object.history → object.strongReferences = 0 := by
    intro index hmem
    rw [← mem_lifecycleOf rfl, h.lifecycle] at hmem
    exact h.released (Stage.zeroed_mem hmem)
  have hlast : stage = .freed → ∀ owner ∈ object.owners, owner = ⟨0, 0, 0, .idle⟩ := by
    rintro rfl owner howner
    obtain ⟨index, hindex⟩ := List.mem_iff_getElem?.mp howner
    have hstage := h.phases index owner hindex
    rw [if_neg (fun hboth => Bool.noConfusion hboth.2)] at hstage
    have hstrong := Object.strongReferences_le hindex
    have hcontrol := Object.controlReferences_le hindex
    have hreleased := h.released rfl
    have hgone := h.gone rfl
    exact (hholding owner howner).eq_idle hstage (by omega) (by omega)
  constructor
  · refine ⟨destroyer, actor, ?_⟩
    rw [h.lifecycle]
    exact stage.lifecycle_prefix object.destructor destroyer actor
  · intro header hheader
    exact (h.counts hheader).1
  · intro header hheader
    rw [(h.counts hheader).2, h.implicit_eq (h.header_eq hheader).1]
  · intro index hmem owner howner
    obtain ⟨position, hposition⟩ := List.mem_iff_getElem?.mp howner
    have hle := Object.strongReferences_le hposition
    have hnone := hzeroed index hmem
    unfold Owner.strongReferences at hle
    omega
  · intro hsettled hnone
    obtain ⟨hzero, hends⟩ :=
      Stage.destroyed_mem (h.not_acting hsettled) (h.not_strong hnone) object.destructor destroyer actor
    rw [← h.lifecycle] at hzero hends
    refine ⟨destroyer, (mem_lifecycleOf rfl).mp hzero, ?_⟩
    intro hdestructor
    exact (mem_lifecycleOf rfl).mp (hends hdestructor)
  · rw [h.header_none]
    constructor
    · rintro rfl
      refine ⟨actor, (mem_lifecycleOf rfl).mp ?_⟩
      rw [h.lifecycle]
      exact List.mem_append_right _ (List.mem_singleton.mpr rfl)
    · rintro ⟨index, hmem⟩
      rw [← mem_lifecycleOf rfl, h.lifecycle] at hmem
      exact Stage.freed_mem hmem
  · intro hnone
    exact hlast (h.header_none.mp hnone)
  · intro hsettled hstrong hcontrol
    rw [h.header_none]
    have hacting := h.not_acting hsettled
    have hreleased := h.not_strong hstrong
    -- of the stages with neither an actor nor strong references, the first still has a reference
    have horphaned : stage ≠ .orphaned := by
      intro heq
      have := h.orphaned heq
      omega
    revert hacting hreleased horphaned
    cases stage <;> decide
  · exact h.honest
  · intro index owner howner hbusy spurious
    have hthere : stage ≠ .freed := by
      intro hfreed
      apply hbusy
      rw [hlast hfreed owner (List.mem_of_getElem? howner)]
    obtain ⟨header, hheader⟩ := Option.ne_none_iff_exists'.mp (fun hnone => hthere (h.header_none.mp hnone))
    obtain ⟨after, hafter⟩ := Option.isSome_iff_exists.mp (owner.proceed_isSome header hbusy spurious)
    unfold Object.proceed
    rw [howner, hheader]
    show (Option.bind (owner.proceed header spurious) _).isSome = true
    rw [hafter]
    rfl

end Correct

/-! ## Every heap that is reached -/

/-- What every step keeps of an object. -/
def Object.Sound (object : Object) : Prop :=
  (∃ stage destroyer actor, At object stage object.destructor destroyer actor) ∧
    ∀ owner ∈ object.owners, owner.Holding

theorem Object.Sound.correct {object : Object} (h : object.Sound) : object.Correct := by
  obtain ⟨⟨stage, destroyer, actor, hat⟩, hholding⟩ := h
  exact hat.correct hholding

theorem forall_mem_set {α : Type} {p : α → Prop} {list : List α} (h : ∀ a ∈ list, p a) {a : α} (ha : p a)
    (index : Nat) : ∀ b ∈ list.set index a, p b := by
  intro b hb
  rcases List.mem_or_eq_of_mem_set hb with hold | rfl
  · exact h b hold
  · exact ha

theorem allocated_sound (destructor : Bool) : (Object.allocated destructor).Sound := by
  refine ⟨⟨.made, 0, 0, allocated_at destructor⟩, ?_⟩
  intro owner howner
  rw [List.mem_singleton.mp howner]
  trivial

section HeapSteps

variable {object object' : Object}

/-- A step that does not count leaves the object counted as it was. -/
theorem Object.Sound.keep (h : object.Sound) (hdestructor : object'.destructor = object.destructor)
    (hat : ∀ stage destroyer actor, At object stage object.destructor destroyer actor →
      At object' stage object.destructor destroyer actor)
    (hholding : (∀ owner ∈ object.owners, owner.Holding) → ∀ owner ∈ object'.owners, owner.Holding) :
    object'.Sound ∧ object'.isCounted = object.isCounted := by
  obtain ⟨⟨stage, destroyer, actor, hold⟩, hall⟩ := h
  have hnew := hat stage destroyer actor hold
  refine ⟨⟨⟨stage, destroyer, actor, ?_⟩, hholding hall⟩, ?_⟩
  · rw [hdestructor]
    exact hnew
  · rw [hnew.isCounted_eq, hold.isCounted_eq]

theorem Object.Sound.begin (h : object.Sound) {index : Nat} {operation : Operation}
    (hbegin : object.begin index operation = some object') :
    object'.Sound ∧ object'.isCounted = object.isCounted := by
  have heq := hbegin
  unfold Object.begin at heq
  rw [Option.bind_eq_bind, Option.bind_eq_some_iff] at heq
  obtain ⟨owner, _, heq⟩ := heq
  rw [Option.bind_eq_some_iff] at heq
  obtain ⟨owner', howner', heq⟩ := heq
  refine h.keep ?_ (fun _ _ _ hat => hat.begin hbegin) ?_
  · rw [← Option.some.inj heq]
  · intro hall
    rw [← Option.some.inj heq]
    exact forall_mem_set hall (Owner.Holding.begin howner') index

theorem Object.Sound.handOver (h : object.Sound) {source target : Nat} {handle : Handle}
    (hgive : object.handOver source target handle = some object') :
    object'.Sound ∧ object'.isCounted = object.isCounted := by
  have heq := hgive
  unfold Object.handOver at heq
  rw [Option.bind_eq_bind, Option.bind_eq_some_iff] at heq
  obtain ⟨giver, _, heq⟩ := heq
  rw [Option.bind_eq_some_iff] at heq
  obtain ⟨taker, htaker, heq⟩ := heq
  split at heq
  · cases heq
  next hgives =>
    push Not at hgives
    refine h.keep ?_ (fun _ _ _ hat => hat.handOver hgive) ?_
    · rw [← Option.some.inj heq]
    · intro hall
      rw [← Option.some.inj heq]
      apply forall_mem_set
      · apply forall_mem_set hall
        apply Owner.Holding.of_idle
        rw [giver.phase_lose handle]
        exact hgives.1
      · exact (hall taker (List.mem_of_getElem? htaker)).gain handle

theorem Object.Sound.join (h : object.Sound) :
    object.join.Sound ∧ object.join.isCounted = object.isCounted := by
  refine h.keep rfl (fun _ _ _ hat => hat.join) ?_
  intro hall owner howner
  rcases List.mem_append.mp howner with hold | hnew
  · exact hall owner hold
  · rw [List.mem_singleton.mp hnew]
    trivial

theorem Object.Sound.proceed (h : object.Sound) {index : Nat} {spurious : Bool} {change : LiveChange}
    (hproceed : object.proceed index spurious = some (object', change)) :
    object'.Sound ∧ change.Moves object.isCounted object'.isCounted := by
  obtain ⟨⟨stage, destroyer, actor, hat⟩, hholding⟩ := h
  unfold Object.proceed at hproceed
  rw [Option.bind_eq_bind, Option.bind_eq_some_iff] at hproceed
  obtain ⟨owner, howner, hproceed⟩ := hproceed
  rw [Option.bind_eq_bind, Option.bind_eq_some_iff] at hproceed
  obtain ⟨header, hheader, hproceed⟩ := hproceed
  rw [Option.bind_eq_bind, Option.bind_eq_some_iff] at hproceed
  obtain ⟨after, hafter, heq⟩ := hproceed
  obtain ⟨stage', destroyer', actor', hat', hmoves⟩ := hat.proceed hheader howner hafter
  obtain ⟨rfl, rfl⟩ := Prod.mk.inj (Option.some.inj heq)
  refine ⟨⟨⟨stage', destroyer', actor', hat'⟩, ?_⟩, ?_⟩
  · exact forall_mem_set hholding ((hholding owner (List.mem_of_getElem? howner)).proceed hafter) index
  · show after.live.Moves object.isCounted (object.after index after).isCounted
    rw [hat.isCounted_eq, hat'.isCounted_eq]
    exact hmoves

end HeapSteps

/-- What every step keeps of the heap. -/
structure Heap.Sound (heap : Heap) : Prop where
  objects : ∀ object ∈ heap.objects, object.Sound
  liveAllocations : heap.liveAllocations = heap.objects.countP Object.isCounted % 2 ^ 64

theorem countP_middle {α : Type} (p : α → Bool) (front back : List α) (a : α) :
    (front ++ a :: back).countP p = front.countP p + back.countP p + (p a).toNat := by
  rw [List.countP_append, List.countP_cons]
  cases p a
  · rfl
  · simp only [if_true, Bool.toNat_true]
    omega

variable {change : LiveChange}

theorem LiveChange.apply_eq {before after : Bool} (h : change.Moves before after) (others : Nat) :
    change.apply ((others + before.toNat) % 2 ^ 64) = (others + after.toNat) % 2 ^ 64 := by
  cases change with
  | same =>
      obtain rfl : after = before := h
      rfl
  | up =>
      obtain ⟨rfl, rfl⟩ := h
      unfold LiveChange.apply fetchAdd
      simp only [Bool.toNat_true, Bool.toNat_false]
      omega
  | down =>
      obtain ⟨rfl, rfl⟩ := h
      unfold LiveChange.apply fetchSub maximum
      simp only [Bool.toNat_true, Bool.toNat_false]
      omega

/-- One object of the heap takes a step. -/
theorem Heap.Sound.replace {live : Nat} {front back : List Object} {object object' : Object}
    (h : Heap.Sound ⟨live, front ++ object :: back⟩) {change : LiveChange}
    (hstep : object.Sound → object'.Sound ∧ change.Moves object.isCounted object'.isCounted) :
    Heap.Sound ⟨change.apply live, front ++ object' :: back⟩ := by
  obtain ⟨hobjects, hlive⟩ := h
  obtain ⟨hsound, hmoves⟩ := hstep (hobjects object (by simp))
  constructor
  · intro other hother
    rcases List.mem_append.mp hother with hfront | hrest
    · exact hobjects other (List.mem_append_left _ hfront)
    rcases List.mem_cons.mp hrest with rfl | hback
    · exact hsound
    · exact hobjects other (List.mem_append_right _ (List.mem_cons_of_mem _ hback))
  · show change.apply live = List.countP _ _ % _
    rw [show live = _ from hlive, countP_middle, countP_middle]
    exact LiveChange.apply_eq hmoves _

theorem Heap.Sound.step {heap heap' : Heap} (h : heap.Sound) (hstep : Step heap heap') : heap'.Sound := by
  cases hstep with
  | allocate destructor =>
      obtain ⟨hobjects, hlive⟩ := h
      constructor
      · intro object hobject
        rcases List.mem_append.mp hobject with hold | hnew
        · exact hobjects object hold
        · rw [List.mem_singleton.mp hnew]
          exact allocated_sound destructor
      · -- the new header is not counted yet
        show _ = List.countP _ (_ ++ [Object.allocated destructor]) % _
        rw [List.countP_append]
        exact hlive
  | begin index operation hbegin => exact @Heap.Sound.replace _ _ _ _ _ h .same fun hsound => hsound.begin hbegin
  | proceed index spurious hproceed => exact h.replace fun hsound => hsound.proceed hproceed
  | handOver source target handle hgive =>
      exact @Heap.Sound.replace _ _ _ _ _ h .same fun hsound => hsound.handOver hgive
  | join => exact @Heap.Sound.replace _ _ _ _ _ h .same fun hsound => hsound.join

theorem Reachable.sound {heap : Heap} (h : Reachable heap) : heap.Sound := by
  induction h with
  | start =>
      constructor
      · intro object hobject
        cases hobject
      · rfl
  | step _ hstep ih => exact ih.step hstep

/-- Under every interleaving every object is correct, and the live allocations are the headers that are
there, up to those that are about to be counted or have just been uncounted. -/
theorem reachable_correct {heap : Heap} (h : Reachable heap) :
    (∀ object ∈ heap.objects, object.Correct) ∧
      heap.liveAllocations = heap.objects.countP Object.isCounted % 2 ^ 64 := by
  constructor
  · intro object hobject
    exact (h.sound.objects object hobject).correct
  · exact h.sound.liveAllocations

/-! ## Where the counts are not exact -/

/-- An object alone on the heap. -/
theorem Reachable.proceed {live : Nat} {object object' : Object} {change : LiveChange}
    (h : Reachable ⟨live, [object]⟩) (hproceed : object.proceed 0 false = some (object', change)) :
    Reachable ⟨change.apply live, [object']⟩ :=
  h.step (@Step.proceed live [] [] object object' 0 false change hproceed)

theorem Reachable.begin {live : Nat} {object object' : Object} (h : Reachable ⟨live, [object]⟩)
    (operation : Operation) (hbegin : object.begin 0 operation = some object') :
    Reachable ⟨live, [object']⟩ :=
  h.step (@Step.begin live [] [] object object' 0 operation hbegin)

theorem reachable_allocated : Reachable ⟨0, [Object.allocated true]⟩ :=
  Reachable.start.step (@Step.allocate 0 [] true)

/-- Allocated, released and destroyed, with the implicit reference still there. -/
def Object.destroyedOnce : Object where
  destructor := true
  header := some ⟨.destroyed, 0, 1, true, false⟩
  owners := [⟨0, 0, 0, .controlSub none⟩]
  history := [(0, .zeroed), (0, .destructorBegins), (0, .destructorEnds)]

def Object.freedOnce : Object where
  destructor := true
  header := none
  owners := [⟨0, 0, 0, .idle⟩]
  history := [(0, .zeroed), (0, .destructorBegins), (0, .destructorEnds), (0, .freed)]

theorem reachable_destroyedOnce : Reachable ⟨1, [Object.destroyedOnce]⟩ := by
  have hcounted := (reachable_allocated.proceed rfl).proceed rfl
  have hreleased := (hcounted.begin (.release .strong) rfl).proceed rfl
  have hzeroed := (hreleased.proceed rfl).proceed rfl
  exact ((hzeroed.proceed rfl).proceed rfl).proceed rfl

theorem reachable_freedOnce : Reachable ⟨0, [Object.freedOnce]⟩ :=
  ((reachable_destroyedOnce.proceed rfl).proceed rfl).proceed rfl

theorem reachable_correct_freedOnce :
    (∀ object ∈ [Object.freedOnce], object.Correct) ∧
      0 = [Object.freedOnce].countP Object.isCounted % 2 ^ 64 :=
  @reachable_correct ⟨0, [Object.freedOnce]⟩ reachable_freedOnce

/-- A header is there before it is counted, and the implicit reference is there after the object has been
destroyed. -/
theorem counts_not_exact :
    (∃ heap, Reachable heap ∧
      heap.liveAllocations ≠ heap.objects.countP fun object => object.header.isSome) ∧
    ∃ heap, Reachable heap ∧ ∃ object ∈ heap.objects, ∃ header, object.header = some header ∧
      header.weakCount ≠ object.controlReferences + if header.state = .destroyed then 0 else 1 := by
  constructor
  · exact ⟨_, reachable_allocated, by decide⟩
  · refine ⟨_, reachable_destroyedOnce, Object.destroyedOnce, List.mem_singleton.mpr rfl, _, rfl, ?_⟩
    decide

/-! ## Operations come to an end -/

/-- How often the rest of an operation may change a count, the release of the header included. -/
def Phase.changes : Phase → Nat
  | .idle | .allocateCount | .allocateStore | .tryObject _ _ => 0
  | .tryLoad _ | .tryExchange _ _ | .controlLoad _ | .controlExchange _ _ | .liveSub | .free => 1
  | .destroyExchange | .destructing | .clearObject | .markDestroyed | .controlSub _ => 2
  | .releaseCheck | .releaseSub => 3

/-- The steps to the next change of a count, if nobody else changes one. -/
def Phase.remaining (header : ObjectHeader) : Phase → Nat
  | .idle | .releaseSub | .controlSub _ | .free => 0
  | .allocateStore | .tryObject _ _ | .releaseCheck | .markDestroyed | .liveSub => 1
  | .allocateCount | .tryLoad _ | .controlLoad _ | .clearObject => 2
  | .tryExchange _ count => if header.strongCount = count then 0 else 1
  | .controlExchange _ count => if header.weakCount = count then 0 else 1
  | .destructing => 3
  | .destroyExchange => 4

def Object.changes (object : Object) : Nat := (object.owners.map fun owner => owner.phase.changes).sum

def Object.remaining (object : Object) : Nat :=
  object.header.elim 0 fun header => (object.owners.map fun owner => owner.phase.remaining header).sum

def Heap.changes (heap : Heap) : Nat := (heap.objects.map Object.changes).sum

def Heap.remaining (heap : Heap) : Nat := (heap.objects.map Object.remaining).sum

/-- The next step of an operation under way; a weak exchange fails only on another value. -/
inductive Advances : Heap → Heap → Prop
  | step {live : Nat} {front back : List Object} {object object' : Object} (index : Nat) {change : LiveChange}
      (h : object.proceed index false = some (object', change)) :
      Advances ⟨live, front ++ object :: back⟩ ⟨change.apply live, front ++ object' :: back⟩

/-- A step changes a count, which lets other exchanges fail, or leaves the counts and comes closer to that. -/
theorem Owner.proceed_comes_closer {owner : Owner} {header : ObjectHeader} {after : After}
    (h : owner.proceed header false = some after) :
    after.owner.phase.changes < owner.phase.changes ∨
      after.owner.phase.changes = owner.phase.changes ∧ ∃ header', after.header = some header' ∧
        (∀ phase : Phase, phase.remaining header' = phase.remaining header) ∧
        after.owner.phase.remaining header < owner.phase.remaining header := by
  have hsame : ∀ {header' : ObjectHeader}, header'.strongCount = header.strongCount →
      header'.weakCount = header.weakCount → ∀ phase : Phase, phase.remaining header' = phase.remaining header := by
    intro header' hstrong hweak phase
    cases phase <;> simp only [Phase.remaining, hstrong, hweak]
  unfold Owner.proceed Owner.tryExchange Owner.controlExchange at h
  cases hphase : owner.phase <;> rw [hphase] at h <;> dsimp only at h
  case idle => cases h
  case tryExchange handle count | controlExchange kind count =>
    obtain rfl := Option.some.inj h
    split
    · exact Or.inl (by simp [silent, Phase.changes])
    split
    · exact Or.inl (by simp [silent, Phase.changes])
    next hfails =>
      -- it was exchanged by somebody else: once more with the count that is there
      refine Or.inr ⟨rfl, header, rfl, fun _ => rfl, ?_⟩
      simp_all [silent, Phase.remaining]
  all_goals
    try split at h
    all_goals
      obtain rfl := Option.some.inj h
      first
        | left
          simp [silent, Phase.changes]
          done
        | refine Or.inr ⟨rfl, _, rfl, hsame rfl rfl, ?_⟩
          simp [silent, Phase.remaining]

theorem Object.proceed_comes_closer {object object' : Object} {index : Nat}
    (h : object.proceed index false = some (object', change)) :
    object'.changes < object.changes ∨ object'.changes = object.changes ∧ object'.remaining < object.remaining := by
  unfold Object.proceed at h
  rw [Option.bind_eq_bind, Option.bind_eq_some_iff] at h
  obtain ⟨owner, howner, h⟩ := h
  rw [Option.bind_eq_bind, Option.bind_eq_some_iff] at h
  obtain ⟨header, hheader, h⟩ := h
  rw [Option.bind_eq_bind, Option.bind_eq_some_iff] at h
  obtain ⟨after, hafter, heq⟩ := h
  obtain ⟨rfl, rfl⟩ := Prod.mk.inj (Option.some.inj heq)
  have hchanges := sum_map_set (fun owner => owner.phase.changes) howner after.owner
  have hremaining := sum_map_set (fun owner => owner.phase.remaining header) howner after.owner
  unfold Object.changes Object.remaining
  rcases Owner.proceed_comes_closer hafter with hless | ⟨hequal, header', hheader', hphases, hless⟩
  · left
    dsimp only
    omega
  · right
    simp only [hheader, hheader', Option.elim_some, hphases]
    omega

theorem Advances.comes_closer {heap heap' : Heap} (h : Advances heap heap') :
    heap'.changes < heap.changes ∨ heap'.changes = heap.changes ∧ heap'.remaining < heap.remaining := by
  obtain ⟨index, hproceed⟩ := h
  have hless := Object.proceed_comes_closer hproceed
  unfold Heap.changes Heap.remaining
  simp only [List.map_append, List.map_cons, List.sum_append, List.sum_cons]
  omega

/-- **The operations under way complete, in whatever order their steps are taken.** If no other operation
begins, no run goes on for ever, and a heap that is reached and can take no step has no operation under way. -/
theorem operations_complete :
    (∀ run : Nat → Heap, ∃ n, ¬ Advances (run n) (run (n + 1))) ∧
      ∀ heap, Reachable heap → (∀ heap', ¬ Advances heap heap') → ∀ object ∈ heap.objects, object.Settled := by
  constructor
  · intro run
    by_contra hforever
    push Not at hforever
    let pending (n : Nat) : Nat ×ₗ Nat := toLex ((run n).changes, (run n).remaining)
    have hdrops : StrictAnti pending :=
      strictAnti_nat_of_succ_lt fun n => Prod.Lex.toLex_lt_toLex.mpr (hforever n).comes_closer
    exact not_strictAnti_of_wellFoundedLT pending hdrops
  · intro heap hreachable hstuck object hobject owner howner
    by_contra hbusy
    obtain ⟨index, hindex⟩ := List.mem_iff_getElem?.mp howner
    have hcorrect := (hreachable.sound.objects object hobject).correct
    obtain ⟨⟨object', change⟩, hproceed⟩ :=
      Option.isSome_iff_exists.mp (hcorrect.progress index owner hindex hbusy false)
    obtain ⟨live, objects⟩ := heap
    obtain ⟨front, back, rfl⟩ := List.append_of_mem hobject
    exact hstuck _ (.step index hproceed)

end Tala.Runtime.Aarc
