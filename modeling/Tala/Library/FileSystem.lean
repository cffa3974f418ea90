import Mathlib.Logic.Function.Basic
import Mathlib.Data.List.Basic

/-!
# `Library.FileSystem` — a directory tree whose operations may fail

A `Disk` is a tree of entries and a list of what happens to the operations to come: each one takes the
next item of the list and fails if it is a fault. A program is over all disks, so over all ways in which
its operations can fail.

`Triple` is the partial specification of a program that may stop with a failure; its rules follow the
program text. `Workspace` is the shape of a disk with one private directory beside the others, and what
the operations do to it is stated on the two maps of names, the directory's and the private one's.
-/

namespace Tala.Library.FileSystem

abbrev Bytes := List UInt8

/-- What a name of a directory stands for. -/
inductive Entry (Name : Type) where
  | file (bytes : Bytes)
  | link (target : Bytes)
  | directory (entries : Name → Option (Entry Name))

inductive ErrorCode where
  | fileExists
  | noSuchFile
  | other
deriving DecidableEq, Repr

structure FileError where
  code : ErrorCode
  message : Bytes
deriving DecidableEq, Repr

/-- How far a write that fails has come. -/
inductive WriteStage where
  | opening
  | finishing
  | closing
deriving DecidableEq, Repr

/-- What happens to an operation that fails: its error, what a write has written by then, and what is left
of a tree that was to be removed. -/
structure Fault (Name : Type) where
  error : FileError
  stage : WriteStage
  written : Nat
  remains : Option (Entry Name)

structure Disk (Name : Type) where
  root : Option (Entry Name)
  faults : List (Option (Fault Name))

/-- An operation gives an answer. -/
abbrev Operation (Name α : Type) := StateM (Disk Name) α

variable {Name Failure α β : Type}

/-! ## Entries by path -/

def lookup : Option (Entry Name) → List Name → Option (Entry Name)
  | entry, [] => entry
  | some (.directory entries), name :: path => lookup (entries name) path
  | some (.file _), _ :: _ => none
  | some (.link _), _ :: _ => none
  | none, _ :: _ => none

section Trees

variable [DecidableEq Name]

/-- Put an entry at a path, or nothing. The directory of the path is there. -/
def put : Option (Entry Name) → List Name → Option (Entry Name) → Option (Entry Name)
  | _, [], entry => entry
  | some (.directory entries), name :: path, entry =>
      some (.directory (Function.update entries name (put (entries name) path entry)))
  | some (.file bytes), _ :: _, _ => some (.file bytes)
  | some (.link target), _ :: _, _ => some (.link target)
  | none, _ :: _, _ => none

def isDirectory : Option (Entry Name) → Bool
  | some (.directory _) => true
  | some (.file _) => false
  | some (.link _) => false
  | none => false

/-! ## Operations -/

def noSuchFile : FileError := ⟨.noSuchFile, []⟩

/-- An operation on the tree, with what it does when the disk fails it. -/
def attempt (fails : Fault Name → Option (Entry Name) → α × Option (Entry Name))
    (succeeds : Option (Entry Name) → α × Option (Entry Name)) : Operation Name α := fun disk =>
  match disk.faults with
  | [] => ((succeeds disk.root).1, ⟨(succeeds disk.root).2, []⟩)
  | none :: faults => ((succeeds disk.root).1, ⟨(succeeds disk.root).2, faults⟩)
  | some fault :: faults => ((fails fault disk.root).1, ⟨(fails fault disk.root).2, faults⟩)

/-- Rename a file over what was there. Directories are not renamed. -/
def renameEntry (source target : List Name) (root : Option (Entry Name)) :
    Option FileError × Option (Entry Name) :=
  match lookup root source with
  | none => (some noSuchFile, root)
  | some (.directory _) => (some ⟨.other, []⟩, root)
  | some entry =>
      if isDirectory (lookup root target) then (some ⟨.other, []⟩, root)
      else if isDirectory (lookup root target.dropLast) then
        (none, put (put root source none) target (some entry))
      else (some noSuchFile, root)

def rename (source target : List Name) : Operation Name (Option FileError) :=
  attempt (fun fault root => (some fault.error, root)) (renameEntry source target)

/-- Remove a file. That there is none is no error; directories are not removed. -/
def removeEntry (path : List Name) (root : Option (Entry Name)) : Option FileError × Option (Entry Name) :=
  if isDirectory (lookup root path) then (some ⟨.other, []⟩, root) else (none, put root path none)

def remove (path : List Name) : Operation Name (Option FileError) :=
  attempt (fun fault root => (some fault.error, root)) (removeEntry path)

/-- Whether a directory was created, and the error. That it is there already is no error. -/
def createEntry (path : List Name) (root : Option (Entry Name)) :
    (Bool × Option FileError) × Option (Entry Name) :=
  match lookup root path with
  | some (.directory _) => ((false, none), root)
  | some (.file _) => ((false, some ⟨.fileExists, []⟩), root)
  | some (.link _) => ((false, some ⟨.fileExists, []⟩), root)
  | none =>
      if path = [] ∨ isDirectory (lookup root path.dropLast) then
        ((true, none), put root path (some (.directory fun _ => none)))
      else ((false, some noSuchFile), root)

def createDirectory (path : List Name) : Operation Name (Bool × Option FileError) :=
  attempt (fun fault root => ((false, some fault.error), root)) (createEntry path)

/-- Remove a tree. One that cannot be removed leaves something behind. -/
def removeAll (path : List Name) : Operation Name (Option FileError) :=
  attempt (fun fault root => (some fault.error, put root path fault.remains))
    fun root => (none, put root path none)

/-- Write a file, over what was there. The answer is the stage that failed. -/
def writeFile (path : List Name) (bytes : Bytes) : Operation Name (Option WriteStage) :=
  attempt (fun fault root =>
      match fault.stage with
      | .opening => (some .opening, root)
      | stage => (some stage, put root path (some (.file (bytes.take fault.written)))))
    fun root =>
      if isDirectory (lookup root path) || !isDirectory (lookup root path.dropLast) then
        (some .opening, root)
      else (none, put root path (some (.file bytes)))

/-- The entry of a path, links not followed. The inspection fails with an error of its own: that there is
no such file is an answer. -/
inductive Status (Name : Type) where
  | unknown (message : Bytes)
  | found (entry : Option (Entry Name))

def symlinkStatus (path : List Name) : Operation Name (Status Name) :=
  attempt (fun fault root => (.unknown fault.error.message, root))
    fun root => (.found (lookup root path), root)

end Trees

/-! ## What an operation can do -/

theorem attempt_cases (fails : Fault Name → Option (Entry Name) → α × Option (Entry Name))
    (succeeds : Option (Entry Name) → α × Option (Entry Name)) (disk : Disk Name) :
    (∃ faults, attempt fails succeeds disk = ((succeeds disk.root).1, ⟨(succeeds disk.root).2, faults⟩)) ∨
      ∃ fault faults,
        attempt fails succeeds disk = ((fails fault disk.root).1, ⟨(fails fault disk.root).2, faults⟩) := by
  rcases disk with ⟨root, _ | ⟨_ | fault, faults⟩⟩
  · left
    exact ⟨[], rfl⟩
  · left
    exact ⟨faults, rfl⟩
  · right
    exact ⟨fault, faults, rfl⟩

/-! ## A private directory beside the other entries -/

section Workspace

variable [DecidableEq Name]

/-- The root is a directory with the given entries, but the staging name has the private directory. -/
def Workspace (staging : Name) (entries privates : Name → Option (Entry Name)) (disk : Disk Name) : Prop :=
  disk.root = some (.directory (Function.update entries staging (some (.directory privates))))

variable {staging name inner : Name} {entries privates : Name → Option (Entry Name)} {disk : Disk Name}

section Changes

variable (h : Workspace staging entries privates disk)

include h

theorem Workspace.lookup_entry (hname : name ≠ staging) : lookup disk.root [name] = entries name := by
  rw [h, lookup, Function.update_of_ne hname, lookup]

theorem Workspace.lookup_staging : lookup disk.root [staging] = some (.directory privates) := by
  rw [h, lookup, Function.update_self, lookup]

theorem Workspace.lookup_private (path : List Name) :
    lookup disk.root (staging :: inner :: path) = lookup (privates inner) path := by
  rw [h, lookup, Function.update_self, lookup]

theorem Workspace.put_entry (hname : name ≠ staging)
    (entry : Option (Entry Name)) (faults : List (Option (Fault Name))) :
    Workspace staging (Function.update entries name entry) privates
      ⟨put disk.root [name] entry, faults⟩ := by
  unfold Workspace
  rw [h, put, put, Function.update_comm hname]

theorem Workspace.put_private (path : List Name)
    (entry : Option (Entry Name)) (faults : List (Option (Fault Name))) :
    Workspace staging entries (Function.update privates inner (put (privates inner) path entry))
      ⟨put disk.root (staging :: inner :: path) entry, faults⟩ := by
  unfold Workspace
  rw [h, put, Function.update_self, put, Function.update_idem]

theorem Workspace.isDirectory_root : isDirectory disk.root = true := by
  rw [h]
  rfl

/-- Move an entry into the private directory. -/
theorem Workspace.rename_out (hname : name ≠ staging) :
    ((rename [name] [staging, inner] disk).1 ≠ none ∧
        Workspace staging entries privates (rename [name] [staging, inner] disk).2) ∨
      ((rename [name] [staging, inner] disk).1 = none ∧
        Workspace staging (Function.update entries name none)
          (Function.update privates inner (entries name)) (rename [name] [staging, inner] disk).2) := by
  rcases attempt_cases (fun fault root => (some fault.error, root))
    (renameEntry [name] [staging, inner]) disk with ⟨faults, heq⟩ | ⟨fault, faults, heq⟩
  · unfold rename
    rw [heq]
    unfold renameEntry
    rw [h.lookup_entry hname]
    split
    · left
      exact ⟨by simp, h⟩
    · left
      exact ⟨by simp, h⟩
    · next entry _ hentry =>
      split
      · left
        exact ⟨by simp, h⟩
      · have hparent : isDirectory (lookup disk.root [staging]) = true := by
          rw [h.lookup_staging]
          rfl
        right
        rw [show [staging, inner].dropLast = [staging] from rfl, if_pos hparent, hentry]
        exact ⟨rfl, (h.put_entry hname none faults).put_private [] (some entry) faults⟩
  · left
    unfold rename
    rw [heq]
    exact ⟨by simp, h⟩

/-- Move an entry out of the private directory. -/
theorem Workspace.rename_in (hname : name ≠ staging) :
    ((rename [staging, inner] [name] disk).1 ≠ none ∧
        Workspace staging entries privates (rename [staging, inner] [name] disk).2) ∨
      ((rename [staging, inner] [name] disk).1 = none ∧
        Workspace staging (Function.update entries name (privates inner))
          (Function.update privates inner none) (rename [staging, inner] [name] disk).2) := by
  rcases attempt_cases (fun fault root => (some fault.error, root))
    (renameEntry [staging, inner] [name]) disk with ⟨faults, heq⟩ | ⟨fault, faults, heq⟩
  · unfold rename
    rw [heq]
    unfold renameEntry
    rw [h.lookup_private, lookup]
    split
    · left
      exact ⟨by simp, h⟩
    · left
      exact ⟨by simp, h⟩
    · next entry _ hentry =>
      split
      · left
        exact ⟨by simp, h⟩
      · right
        rw [show [name].dropLast = [] from rfl, lookup, if_pos h.isDirectory_root, hentry]
        exact ⟨rfl, (h.put_private [] none faults).put_entry hname (some entry) faults⟩
  · left
    unfold rename
    rw [heq]
    exact ⟨by simp, h⟩

theorem Workspace.remove (hname : name ≠ staging) :
    ((remove [name] disk).1 ≠ none ∧ Workspace staging entries privates (remove [name] disk).2) ∨
      ((remove [name] disk).1 = none ∧
        Workspace staging (Function.update entries name none) privates (remove [name] disk).2) := by
  rcases attempt_cases (fun fault root => (some fault.error, root)) (removeEntry [name]) disk with
    ⟨faults, heq⟩ | ⟨fault, faults, heq⟩
  · unfold FileSystem.remove
    rw [heq]
    unfold removeEntry
    split
    · left
      exact ⟨by simp, h⟩
    · right
      exact ⟨rfl, h.put_entry hname none faults⟩
  · left
    unfold FileSystem.remove
    rw [heq]
    exact ⟨by simp, h⟩

/-- A write reaches at most the file it is for. -/
theorem Workspace.writeFile (bytes : Bytes) :
    ((writeFile [staging, inner] bytes disk).1 = none →
        Workspace staging entries (Function.update privates inner (some (.file bytes)))
          (writeFile [staging, inner] bytes disk).2) ∧
      ∃ privates', Workspace staging entries privates' (writeFile [staging, inner] bytes disk).2 := by
  unfold FileSystem.writeFile
  rcases attempt_cases (fun fault root =>
      match fault.stage with
      | .opening => (some WriteStage.opening, root)
      | stage => (some stage, put root [staging, inner] (some (.file (bytes.take fault.written)))))
    (fun root =>
      if isDirectory (lookup root [staging, inner]) || !isDirectory (lookup root [staging, inner].dropLast) then
        (some WriteStage.opening, root)
      else (none, put root [staging, inner] (some (.file bytes)))) disk with
    ⟨faults, heq⟩ | ⟨fault, faults, heq⟩
  · rw [heq]
    split
    · exact ⟨fun hnone => absurd hnone (by simp), privates, h⟩
    · have hput : Workspace staging entries (Function.update privates inner (some (.file bytes)))
          ⟨put disk.root [staging, inner] (some (.file bytes)), faults⟩ := h.put_private [] _ faults
      exact ⟨fun _ => hput, _, hput⟩
  · rw [heq]
    split
    · exact ⟨fun hnone => absurd hnone (by simp), privates, h⟩
    · exact ⟨fun hnone => absurd hnone (by simp), _, h.put_private [] _ faults⟩

theorem Workspace.symlinkStatus (path : List Name) :
    Workspace staging entries privates (symlinkStatus path disk).2 ∧
      ∀ entry, (symlinkStatus path disk).1 = .found entry → entry = lookup disk.root path := by
  unfold FileSystem.symlinkStatus
  rcases attempt_cases (fun fault root => (Status.unknown fault.error.message, root))
    (fun root => (Status.found (lookup root path), root)) disk with
    ⟨faults, heq⟩ | ⟨fault, faults, heq⟩
  · rw [heq]
    refine ⟨h, fun entry hentry => ?_⟩
    cases hentry
    rfl
  · rw [heq]
    refine ⟨h, fun entry hentry => ?_⟩
    cases hentry

/-- Make a directory below the private one: one that is made was not there. -/
theorem Workspace.createDirectory (path : List Name) :
    ∃ privates', Workspace staging entries privates' (createDirectory (staging :: inner :: path) disk).2 ∧
      ((createDirectory (staging :: inner :: path) disk).1.1 = true →
        isDirectory (lookup disk.root (staging :: inner :: path).dropLast) = true ∧
          lookup (privates inner) path = none ∧
          privates' = Function.update privates inner
            (put (privates inner) path (some (.directory fun _ => none)))) := by
  unfold FileSystem.createDirectory
  rcases attempt_cases (fun fault root => ((false, some fault.error), root))
    (createEntry (staging :: inner :: path)) disk with ⟨faults, heq⟩ | ⟨fault, faults, heq⟩
  · rw [heq]
    unfold createEntry
    rw [h.lookup_private]
    split
    · exact ⟨privates, h, fun hfalse => absurd hfalse (by simp)⟩
    · exact ⟨privates, h, fun hfalse => absurd hfalse (by simp)⟩
    · exact ⟨privates, h, fun hfalse => absurd hfalse (by simp)⟩
    · next hnone =>
      split
      · next hparent =>
        exact ⟨_, h.put_private path _ faults, fun _ => ⟨hparent.resolve_left (by simp), hnone, rfl⟩⟩
      · exact ⟨privates, h, fun hfalse => absurd hfalse (by simp)⟩
  · rw [heq]
    exact ⟨privates, h, fun hfalse => absurd hfalse (by simp)⟩

end Changes

/-- Make the private directory. -/
theorem createDirectory_staging (hroot : disk.root = some (.directory entries))
    (h : (createDirectory [staging] disk).1.1 = true) :
    entries staging = none ∧
      Workspace staging entries (fun _ => none) (createDirectory [staging] disk).2 := by
  unfold FileSystem.createDirectory at h ⊢
  rcases attempt_cases (fun fault root => ((false, some fault.error), root)) (createEntry [staging]) disk with
    ⟨faults, heq⟩ | ⟨fault, faults, heq⟩
  · rw [heq] at h ⊢
    unfold createEntry at h ⊢
    rw [hroot, lookup, lookup] at h ⊢
    split at h
    · cases h
    · cases h
    · cases h
    · next hnone => exact ⟨hnone, rfl⟩
  · rw [heq] at h
    cases h

theorem createDirectory_not_created (path : List Name) (h : (createDirectory path disk).1.1 = false) :
    (createDirectory path disk).2.root = disk.root := by
  unfold FileSystem.createDirectory at h ⊢
  rcases attempt_cases (fun fault root => ((false, some fault.error), root)) (createEntry path) disk with
    ⟨faults, heq⟩ | ⟨fault, faults, heq⟩
  · rw [heq] at h ⊢
    unfold createEntry at h ⊢
    split at h
    · rfl
    · rfl
    · rfl
    · split at h
      · cases h
      · next hparent => rw [if_neg hparent]
  · rw [heq]

/-- Remove the private directory, or some of it. -/
theorem Workspace.removeAll (h : Workspace staging entries privates disk) :
    ∃ remains, (removeAll [staging] disk).2.root
        = some (.directory (Function.update entries staging remains)) ∧
      ((removeAll [staging] disk).1 = none → remains = none) := by
  unfold FileSystem.removeAll
  rcases attempt_cases (fun fault root => (some fault.error, put root [staging] fault.remains))
    (fun root => (none, put root [staging] none)) disk with ⟨faults, heq⟩ | ⟨fault, faults, heq⟩
  · rw [heq]
    refine ⟨none, ?_, fun _ => rfl⟩
    show put disk.root [staging] none = _
    rw [h, put, put, Function.update_idem]
  · rw [heq]
    refine ⟨fault.remains, ?_, fun hnone => absurd hnone (by simp)⟩
    show put disk.root [staging] fault.remains = _
    rw [h, put, put, Function.update_idem]

end Workspace

/-! ## Programs -/

section Programs

variable {State : Type}

/-- From a state with `P` the operation gives an answer with `Q`. -/
def Ensures (P : State → Prop) (operation : StateM State α) (Q : α → State → Prop) : Prop :=
  ∀ state, P state → Q (operation state).1 (operation state).2

theorem Ensures.pure {P : State → Prop} {Q : α → State → Prop} (a : α) (h : ∀ state, P state → Q a state) :
    Ensures P (Pure.pure a) Q := by
  intro state hstate
  exact h state hstate

theorem Ensures.bind {P : State → Prop} {Q : α → State → Prop} {R : β → State → Prop}
    {operation : StateM State α} {next : α → StateM State β} (h : Ensures P operation Q)
    (hnext : ∀ a, Ensures (Q a) (next a) R) : Ensures P (operation >>= next) R := by
  intro state hstate
  exact hnext _ _ (h state hstate)

/-- From a state with `P` the program ends with a value and `Q`, or stops with a failure and `E`. -/
def Triple (P : State → Prop) (program : ExceptT Failure (StateM State) α) (Q : α → State → Prop)
    (E : Failure → State → Prop) : Prop :=
  ∀ state, P state →
    match program.run state with
    | (.ok a, after) => Q a after
    | (.error failure, after) => E failure after

namespace Triple

variable {P P' : State → Prop} {Q Q' : α → State → Prop} {R : β → State → Prop}
  {E E' : Failure → State → Prop}

theorem pure (a : α) (h : ∀ state, P state → Q a state) :
    Triple P (Pure.pure a : ExceptT Failure (StateM State) α) Q E := by
  intro state hstate
  exact h state hstate

theorem throw (failure : Failure) (h : ∀ state, P state → E failure state) :
    Triple P (MonadExcept.throw failure : ExceptT Failure (StateM State) α) Q E := by
  intro state hstate
  exact h state hstate

theorem bind {program : ExceptT Failure (StateM State) α} {next : α → ExceptT Failure (StateM State) β}
    (h : Triple P program Q E) (hnext : ∀ a, Triple (Q a) (next a) R E) :
    Triple P (program >>= next) R E := by
  intro state hstate
  have hprogram := h state hstate
  rw [ExceptT.run_bind]
  rcases hrun : program.run state with ⟨failure | a, after⟩
  · rw [hrun] at hprogram
    simp only [Bind.bind, StateT.bind, hrun]
    exact hprogram
  · rw [hrun] at hprogram
    simp only [Bind.bind, StateT.bind, hrun]
    exact hnext a after hprogram

/-- An operation whose answer the program looks at. -/
theorem operation {operation : StateM State α} (h : Ensures P operation Q) :
    Triple P (liftM operation : ExceptT Failure (StateM State) α) Q E := by
  intro state hstate
  exact h state hstate

theorem weaken {program : ExceptT Failure (StateM State) α} (h : Triple P program Q E)
    (hbefore : ∀ state, P' state → P state) (hafter : ∀ a state, Q a state → Q' a state)
    (hfailure : ∀ failure state, E failure state → E' failure state) : Triple P' program Q' E' := by
  intro state hstate
  have hprogram := h state (hbefore state hstate)
  rcases hrun : program.run state with ⟨failure | a, after⟩
  · rw [hrun] at hprogram
    exact hfailure failure after hprogram
  · rw [hrun] at hprogram
    exact hafter a after hprogram

end Triple

end Programs

end Tala.Library.FileSystem
