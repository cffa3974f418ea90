import Mathlib.Algebra.Order.Ring.Int

/-!
# `Runtime.Aarc` — atomic reference counting, step by step

An object has a header with two counts and any number of owners that work on it at once. `Owner.proceed`
is the next atomic step of what an owner is doing: a load, an exchange, a subtraction, a store. Between two
steps of one owner any steps of the others may happen.

An owner is whoever holds handles: a thread, or the fields of a payload that its destructor releases. It
begins an operation only on a handle that it holds, and the handle of a release is no longer held from the
beginning of the operation. Null handles are not in the model: the operations do nothing with them.
-/

namespace Tala.Runtime.Aarc

/-- The greatest value of a 64-bit count. -/
def maximum : Nat := 2 ^ 64 - 1

def fetchAdd (count : Nat) : Nat := (count + 1) % 2 ^ 64

def fetchSub (count : Nat) : Nat := (count + maximum) % 2 ^ 64

inductive ObjectState where
  | alive
  | destroying
  | destroyed
deriving DecidableEq, Repr

structure ObjectHeader where
  state : ObjectState
  strongCount : Nat
  weakCount : Nat
  /-- The metadata has a destructor. -/
  destructor : Bool
  /-- The pointer to the payload is set. -/
  object : Bool
deriving DecidableEq, Repr

/-- The handles of a control block. -/
inductive Control where
  | weak
  | unowned
deriving DecidableEq, Repr

/-- The handle through which an object is retained. -/
inductive Handle where
  | strong
  | control (kind : Control)
deriving DecidableEq, Repr

/-- What an owner is about to do. -/
inductive Phase where
  | idle
  /-- `Allocate`: count the allocation, then publish the payload. -/
  | allocateCount
  | allocateStore
  /-- `TryRetain`: load the count, exchange it, then load the payload. -/
  | tryLoad (handle : Handle)
  | tryExchange (handle : Handle) (count : Nat)
  | tryObject (handle : Handle) (count : Nat)
  /-- `RetainControl`: load the count, then exchange it. -/
  | controlLoad (kind : Control)
  | controlExchange (kind : Control) (count : Nat)
  /-- `ReleaseStrong`: look for saturation, subtract, and destroy after the last release. -/
  | releaseCheck
  | releaseSub
  | destroyExchange
  | destructing
  | clearObject
  | markDestroyed
  /-- `ReleaseControl`, of a handle or of the implicit reference. -/
  | controlSub (kind : Option Control)
  | liveSub
  | free
deriving DecidableEq, Repr

/-- The handles of an owner, and where it is in an operation. -/
structure Owner where
  strong : Nat
  weak : Nat
  unowned : Nat
  phase : Phase
deriving DecidableEq, Repr

namespace Owner

def held (owner : Owner) : Handle → Nat
  | .strong => owner.strong
  | .control .weak => owner.weak
  | .control .unowned => owner.unowned

/-- One handle more. -/
def gain (owner : Owner) : Handle → Owner
  | .strong => { owner with strong := owner.strong + 1 }
  | .control .weak => { owner with weak := owner.weak + 1 }
  | .control .unowned => { owner with unowned := owner.unowned + 1 }

def lose (owner : Owner) : Handle → Owner
  | .strong => { owner with strong := owner.strong - 1 }
  | .control .weak => { owner with weak := owner.weak - 1 }
  | .control .unowned => { owner with unowned := owner.unowned - 1 }

end Owner

inductive Operation where
  /-- `RetainStrong`, `LockWeak` and `LoadUnowned`. -/
  | retain (handle : Handle)
  /-- `MakeWeak` and `MakeUnowned` from a strong handle, `CopyWeak` and `CopyUnowned` from one of their own. -/
  | make (kind : Control)
  | copy (kind : Control)
  /-- `ReleaseStrong`, `ReleaseWeak` and `ReleaseUnowned`. -/
  | release (handle : Handle)
deriving DecidableEq, Repr

/-- An idle owner begins an operation on a handle that it holds. -/
def Owner.begin (owner : Owner) (operation : Operation) : Option Owner :=
  if owner.phase ≠ .idle then none
  else
    match operation with
    | .retain handle => if owner.held handle = 0 then none else some { owner with phase := .tryLoad handle }
    | .make kind => if owner.strong = 0 then none else some { owner with phase := .controlLoad kind }
    | .copy kind =>
        if owner.held (.control kind) = 0 then none else some { owner with phase := .controlLoad kind }
    | .release .strong =>
        if owner.strong = 0 then none else some { owner.lose .strong with phase := .releaseCheck }
    | .release (.control kind) =>
        if owner.held (.control kind) = 0 then none
        else some { owner.lose (.control kind) with phase := .controlSub (some kind) }

inductive Event where
  /-- A release has taken the strong count to zero. -/
  | zeroed
  | destructorBegins
  | destructorEnds
  | freed
  /-- A release has found the strong count saturated and left it. -/
  | ignored
  /-- `TryRetain` has returned the object or null, after the given count. -/
  | yields (handle : Handle) (object : Bool) (count : Nat)
deriving DecidableEq, Repr

inductive LiveChange where
  | same
  | up
  | down
deriving DecidableEq, Repr

def LiveChange.apply : LiveChange → Nat → Nat
  | .same, live => live
  | .up, live => fetchAdd live
  | .down, live => fetchSub live

/-- What a step leaves. -/
structure After where
  header : Option ObjectHeader
  owner : Owner
  events : List Event
  live : LiveChange
deriving DecidableEq, Repr

/-- A step without an event. -/
def silent (header : ObjectHeader) (owner : Owner) : After := ⟨some header, owner, [], .same⟩

/-- The exchange of `TryRetain` with the loop around it. A weak exchange may fail on the value it expects. -/
def Owner.tryExchange (header : ObjectHeader) (owner : Owner) (handle : Handle) (count : Nat)
    (spurious : Bool) : After :=
  if count = 0 ∨ count = maximum then
    { silent header { owner with phase := .idle } with events := [.yields handle false count] }
  else if header.strongCount = count ∧ spurious = false then
    silent { header with strongCount := count + 1 } { owner with phase := .tryObject handle count }
  else silent header { owner with phase := .tryExchange handle header.strongCount }

/-- The exchange of `RetainControl`. -/
def Owner.controlExchange (header : ObjectHeader) (owner : Owner) (kind : Control) (count : Nat)
    (spurious : Bool) : After :=
  if count = 0 ∨ count = maximum then silent header { owner with phase := .idle }
  else if header.weakCount = count ∧ spurious = false then
    silent { header with weakCount := count + 1 } { owner.gain (.control kind) with phase := .idle }
  else silent header { owner with phase := .controlExchange kind header.weakCount }

/-- The next step of an owner. -/
def Owner.proceed (header : ObjectHeader) (owner : Owner) (spurious : Bool) : Option After :=
  match owner.phase with
  | .idle => none
  | .allocateCount => some { silent header { owner with phase := .allocateStore } with live := .up }
  | .allocateStore => some (silent { header with object := true } { owner.gain .strong with phase := .idle })
  | .tryLoad handle => some (silent header { owner with phase := .tryExchange handle header.strongCount })
  | .tryExchange handle count => some (owner.tryExchange header handle count spurious)
  | .tryObject handle count =>
      if header.object then
        some { silent header { owner.gain .strong with phase := .idle } with
          events := [.yields handle true count] }
      else some { silent header { owner with phase := .idle } with events := [.yields handle false count] }
  | .controlLoad kind => some (silent header { owner with phase := .controlExchange kind header.weakCount })
  | .controlExchange kind count => some (owner.controlExchange header kind count spurious)
  | .releaseCheck =>
      if header.strongCount = maximum then
        some { silent header { owner with phase := .idle } with events := [.ignored] }
      else some (silent header { owner with phase := .releaseSub })
  | .releaseSub =>
      let header' := { header with strongCount := fetchSub header.strongCount }
      if header.strongCount ≠ 1 then some (silent header' { owner with phase := .idle })
      else some { silent header' { owner with phase := .destroyExchange } with events := [.zeroed] }
  | .destroyExchange =>
      if header.state = .alive then
        some { silent { header with state := .destroying } { owner with phase := .destructing } with
          events := if header.destructor then [.destructorBegins] else [] }
      else some (silent header { owner with phase := .controlSub none })
  | .destructing =>
      some { silent header { owner with phase := .clearObject } with
        events := if header.destructor then [.destructorEnds] else [] }
  | .clearObject => some (silent { header with object := false } { owner with phase := .markDestroyed })
  | .markDestroyed => some (silent { header with state := .destroyed } { owner with phase := .controlSub none })
  | .controlSub _ =>
      let header' := { header with weakCount := fetchSub header.weakCount }
      if header.weakCount ≠ 1 then some (silent header' { owner with phase := .idle })
      else some (silent header' { owner with phase := .liveSub })
  | .liveSub => some { silent header { owner with phase := .free } with live := .down }
  | .free => some ⟨none, { owner with phase := .idle }, [.freed], .same⟩

/-! ## Objects and the heap -/

/-- An object. Its header is there until it is freed; the history tells which owner did what. -/
structure Object where
  /-- The metadata that the object was allocated with has a destructor. -/
  destructor : Bool
  header : Option ObjectHeader
  owners : List Owner
  history : List (Nat × Event)
deriving DecidableEq, Repr

namespace Object

/-- A new header, and the owner that allocates it. -/
def allocated (destructor : Bool) : Object where
  destructor := destructor
  header := some ⟨.alive, 1, 1, destructor, false⟩
  owners := [⟨0, 0, 0, .allocateCount⟩]
  history := []

def begin (object : Object) (index : Nat) (operation : Operation) : Option Object := do
  let owner ← object.owners[index]?
  let owner ← owner.begin operation
  some { object with owners := object.owners.set index owner }

/-- A step is on a header that is there. -/
def proceed (object : Object) (index : Nat) (spurious : Bool) : Option (Object × LiveChange) := do
  let owner ← object.owners[index]?
  let header ← object.header
  let after ← owner.proceed header spurious
  some (⟨object.destructor, after.header, object.owners.set index after.owner,
    object.history ++ after.events.map fun event => (index, event)⟩, after.live)

/-- An idle owner gives a handle to another one. -/
def handOver (object : Object) (source target : Nat) (handle : Handle) : Option Object := do
  let giver ← object.owners[source]?
  let taker ← object.owners[target]?
  if giver.phase ≠ .idle ∨ giver.held handle = 0 ∨ source = target then none
  else
    some { object with
      owners := (object.owners.set source (giver.lose handle)).set target (taker.gain handle) }

/-- Another owner, with no handles yet. -/
def join (object : Object) : Object := { object with owners := object.owners ++ [⟨0, 0, 0, .idle⟩] }

end Object

/-- All objects, and the count of the allocations that are alive. -/
structure Heap where
  liveAllocations : Nat
  objects : List Object
deriving DecidableEq, Repr

/-- One step of some owner of some object, or of the program around them. -/
inductive Step : Heap → Heap → Prop
  | allocate {live : Nat} {objects : List Object} (destructor : Bool) :
      Step ⟨live, objects⟩ ⟨live, objects ++ [Object.allocated destructor]⟩
  | begin {live : Nat} {front back : List Object} {object object' : Object} (index : Nat)
      (operation : Operation) (h : object.begin index operation = some object') :
      Step ⟨live, front ++ object :: back⟩ ⟨live, front ++ object' :: back⟩
  | proceed {live : Nat} {front back : List Object} {object object' : Object} (index : Nat) (spurious : Bool)
      {change : LiveChange} (h : object.proceed index spurious = some (object', change)) :
      Step ⟨live, front ++ object :: back⟩ ⟨change.apply live, front ++ object' :: back⟩
  | handOver {live : Nat} {front back : List Object} {object object' : Object} (source target : Nat)
      (handle : Handle) (h : object.handOver source target handle = some object') :
      Step ⟨live, front ++ object :: back⟩ ⟨live, front ++ object' :: back⟩
  | join {live : Nat} {front back : List Object} {object : Object} :
      Step ⟨live, front ++ object :: back⟩ ⟨live, front ++ object.join :: back⟩

/-- The states that some interleaving reaches. -/
inductive Reachable : Heap → Prop
  | start : Reachable ⟨0, []⟩
  | step {heap heap' : Heap} (h : Reachable heap) (hstep : Step heap heap') :
      Reachable heap'

end Tala.Runtime.Aarc
