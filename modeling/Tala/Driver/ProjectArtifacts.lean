import Mathlib.Algebra.Order.Ring.Int
import Tala.Library.FileSystem

/-!
# `Driver.ProjectArtifacts` — a set of output files, replaced as one

`commitArtifactFiles` writes all new files into a private staging directory, then moves each existing
output to a backup there and the new file into its place, and takes all of this back when a step fails.

Names are byte strings. A volume may take several of them for one name (`Volume.key`), as long as it tells
ASCII names apart that differ in more than the case of letters. Paths are relative to the output directory,
which is the root of the `Disk`.
-/

namespace Tala.Driver.ProjectArtifacts

open Library.FileSystem

abbrev FileName := Bytes

/-- The bytes of an ASCII text. -/
def bytes (text : String) : Bytes := text.toList.map fun character => UInt8.ofNat character.toNat

/-! ## Names -/

def isUnicodeScalar (value : Nat) : Bool := value ≤ 0x10ffff && (value < 0xd800 || value > 0xdfff)

def foldAscii (text : Bytes) : Bytes :=
  text.map fun character => if 0x41 ≤ character ∧ character ≤ 0x5a then character - 0x41 + 0x61 else character

def isAscii (text : Bytes) : Bool := text.all fun character => character < 0x80

/-- The width of an encoding by its first byte, and the bits of the scalar in that byte. -/
def utf8Lead (first : UInt8) : Option (Nat × Nat) :=
  if 0xc2 ≤ first ∧ first ≤ 0xdf then some (2, (first &&& 0x1f).toNat)
  else if 0xe0 ≤ first ∧ first ≤ 0xef then some (3, (first &&& 0x0f).toNat)
  else if 0xf0 ≤ first ∧ first ≤ 0xf4 then some (4, (first &&& 0x07).toNat)
  else none

/-- Shortest encodings of scalars only: a path name has one spelling. -/
def isValidUtf8 : Bytes → Bool
  | [] => true
  | first :: rest =>
      if first ≤ 0x7f then isValidUtf8 rest
      else
        match utf8Lead first with
        | none => false
        | some (width, bits) =>
            let continuation := rest.take (width - 1)
            let scalar := continuation.foldl (fun scalar byte => scalar * 64 + (byte &&& 0x3f).toNat) bits
            if continuation.length < width - 1 then false
            else if continuation.any fun byte => byte &&& 0xc0 != 0x80 then false
            else if (width = 2 ∧ scalar < 0x80) ∨ (width = 3 ∧ scalar < 0x800)
              ∨ (width = 4 ∧ scalar < 0x10000) ∨ !isUnicodeScalar scalar then false
            else isValidUtf8 (rest.drop (width - 1))
termination_by text => text.length

def forbidden : Bytes := [0x3c, 0x3e, 0x3a, 0x22, 0x2f, 0x5c, 0x7c, 0x3f, 0x2a]

def deviceNames : List Bytes :=
  [bytes "con", bytes "prn", bytes "aux", bytes "nul", bytes "conin$", bytes "conout$", bytes "clock$"]

def superscriptNumbers : List Bytes := [[0xc2, 0xb9], [0xc2, 0xb2], [0xc2, 0xb3]]

/-- A numbered device: its stem, and the numbers it may have. -/
def isNumberedDevice (device : Bytes) : Bool :=
  (device.take 3 = bytes "com" || device.take 3 = bytes "lpt") &&
    ((device.length = 4 && device.drop 3 ∈ (List.range 9).map fun number => [0x31 + UInt8.ofNat number]) ||
      device.drop 3 ∈ superscriptNumbers)

/-- A basename that every supported file system takes. -/
def isSafeFileName (name : FileName) : Bool :=
  let device := foldAscii (name.takeWhile (· != 0x2e))
  !(name.isEmpty || !isValidUtf8 name || name = bytes "." || name = bytes ".."
      || name.getLast? = some 0x2e || name.getLast? = some 0x20)
    && !(name.any fun byte => byte < 0x20 || byte = 0x7f || forbidden.contains byte)
    && !deviceNames.contains device && !isNumberedDevice device

/-- The names a volume tells apart. -/
structure Volume (Name : Type) where
  key : FileName → Name
  ascii : ∀ a b, isAscii a = true → isAscii b = true → key a = key b → foldAscii a = foldAscii b

/-! ## The transaction -/

structure ArtifactFile where
  fileName : FileName
  bytes : Bytes
deriving DecidableEq, Repr

structure PendingReplacement where
  destination : FileName
  /-- A name in the staging directory. -/
  backup : FileName
  hadOriginal : Bool
  backedUp : Bool
  installed : Bool
deriving DecidableEq, Repr

/-- Why a transaction stops, and whether its staging directory is kept for recovery. -/
structure Abort where
  message : Bytes
  preserve : Bool
deriving DecidableEq, Repr

section Transaction

variable {Name : Type} [DecidableEq Name] (volume : Volume Name)
  /- The text of the path of the output directory. -/
  (outputDirectory : Bytes)

/-- A step of the transaction. -/
abbrev Step (Name α : Type) := ExceptT Abort (StateM (Disk Name)) α

def stop {α : Type} (message : Bytes) : Step Name α := throw ⟨message, false⟩

def pathText (path : List FileName) : Bytes := outputDirectory ++ path.flatMap fun name => 0x2f :: name

def newName (index : Nat) : FileName := bytes "new-" ++ bytes (toString index)

def oldName (index : Nat) : FileName := bytes "old-" ++ bytes (toString index)

def stagingName (nonce : Nat) : FileName := bytes ".tala-artifacts-" ++ bytes (toString nonce)

/-- Reserve a staging directory that was not there. The counter has 64 bits. -/
def reserve (sequence : Nat) : Nat → Step Name FileName
  | 0 => stop (bytes "could not create project staging directory: could not reserve a private staging directory")
  | attempts + 1 => do
      let name := stagingName (sequence % 2 ^ 64)
      let (created, error) ← createDirectory [volume.key name]
      if created then pure name
      else
        match error with
        | none => reserve (sequence + 1) attempts
        | some error =>
            if error.code = .fileExists then reserve (sequence + 1) attempts
            else stop (bytes "could not create project staging directory: " ++ error.message)

def probeNames (staging : FileName) : List ArtifactFile → Step Name Unit
  | [] => pure ()
  | file :: files => do
      let (created, _) ← createDirectory
        [volume.key staging, volume.key (bytes "name-probes"), volume.key file.fileName]
      if created then probeNames staging files
      else stop (bytes "project output names collide on this filesystem: " ++ file.fileName)

/-- Names that are not ASCII may be one name on this volume. -/
def probe (staging : FileName) (files : List ArtifactFile) : Step Name Unit :=
  if files.any fun file => !isAscii file.fileName then do
    let (_, error) ← createDirectory [volume.key staging, volume.key (bytes "name-probes")]
    match error with
    | some error => stop (bytes "could not initialize project name probes: " ++ error.message)
    | none => probeNames volume staging files
  else pure ()

def stagedFileError (path : List FileName) : WriteStage → Bytes
  | .opening => bytes "could not open staged artifact '" ++ pathText outputDirectory path ++ bytes "'"
  | .finishing => bytes "could not finish staged artifact '" ++ pathText outputDirectory path ++ bytes "'"
  | .closing => bytes "could not close staged artifact '" ++ pathText outputDirectory path ++ bytes "'"

def stageFiles (staging : FileName) : Nat → List ArtifactFile → Step Name Unit
  | _, [] => pure ()
  | index, file :: files => do
      let error ← writeFile [volume.key staging, volume.key (newName index)] file.bytes
      match error with
      | some stage => stop (stagedFileError outputDirectory [staging, newName index] stage)
      | none => stageFiles staging (index + 1) files

/-- What has to be replaced. -/
def inspect : Nat → List ArtifactFile → Step Name (List PendingReplacement)
  | _, [] => pure []
  | index, file :: files => do
      let status ← symlinkStatus [volume.key file.fileName]
      match status with
      | .unknown message =>
          stop (bytes "could not inspect existing project artifact '"
            ++ pathText outputDirectory [file.fileName] ++ bytes "': " ++ message)
      | .found entry =>
          if isDirectory entry then
            stop (bytes "project artifact destination is a directory: "
              ++ pathText outputDirectory [file.fileName])
          else do
            let others ← inspect (index + 1) files
            pure (⟨file.fileName, oldName index, entry.isSome, false, false⟩ :: others)

/-- Move a backup to its place again. -/
def restore (staging : FileName) (replacement : PendingReplacement) :
    Operation Name (Bytes × PendingReplacement) :=
  if replacement.backedUp then do
    let error ← rename [volume.key staging, volume.key replacement.backup] [volume.key replacement.destination]
    match error with
    | some error =>
        pure (bytes " could not restore '" ++ pathText outputDirectory [replacement.destination]
          ++ bytes "' from '" ++ pathText outputDirectory [staging, replacement.backup]
          ++ bytes "': " ++ error.message, replacement)
    | none => pure ([], { replacement with backedUp := false })
  else pure ([], replacement)

/-- Take one replacement back. A step that fails leaves the rest of it as it is. -/
def rollBackOne (staging : FileName) (replacement : PendingReplacement) :
    Operation Name (Bytes × PendingReplacement) :=
  if replacement.installed then do
    let error ← remove [volume.key replacement.destination]
    match error with
    | some error =>
        pure (bytes " could not remove '" ++ pathText outputDirectory [replacement.destination]
          ++ bytes "': " ++ error.message, replacement)
    | none => restore volume outputDirectory staging { replacement with installed := false }
  else restore volume outputDirectory staging replacement

/-- Reverse order mirrors commit order. -/
def rollBack (staging : FileName) : List PendingReplacement → Operation Name (Bytes × List PendingReplacement)
  | [] => pure ([], [])
  | replacement :: replacements => do
      let (failures, replacements) ← rollBack staging replacements
      let (failure, replacement) ← rollBackOne volume outputDirectory staging replacement
      pure (failures ++ failure, replacement :: replacements)

def abortReplacement (staging : FileName) (replacements : List PendingReplacement) (primaryError : Bytes) :
    Step Name Unit := do
  let (failures, _) ← rollBack volume outputDirectory staging replacements
  if failures.isEmpty then throw ⟨primaryError, false⟩
  else
    throw ⟨primaryError ++ bytes "; rollback was incomplete:" ++ failures
      ++ bytes "; recovery files retained at '" ++ pathText outputDirectory [staging] ++ bytes "'", true⟩

/-- Move an original to its backup. -/
def backUp (staging : FileName) (done : List PendingReplacement) (replacement : PendingReplacement)
    (pending : List PendingReplacement) : Step Name Unit :=
  if replacement.hadOriginal then do
    let error ← rename [volume.key replacement.destination] [volume.key staging, volume.key replacement.backup]
    match error with
    | some error =>
        abortReplacement volume outputDirectory staging (done ++ replacement :: pending)
          (bytes "could not preserve existing artifact '" ++ pathText outputDirectory [replacement.destination]
            ++ bytes "': " ++ error.message)
    | none => pure ()
  else pure ()

/-- Move a new file to its place. -/
def install (staging : FileName) (done : List PendingReplacement) (replacement : PendingReplacement)
    (pending : List PendingReplacement) : Step Name Unit := do
  let error ← rename [volume.key staging, volume.key (newName done.length)] [volume.key replacement.destination]
  match error with
  | some error =>
      abortReplacement volume outputDirectory staging (done ++ replacement :: pending)
        (bytes "could not install project artifact '" ++ pathText outputDirectory [replacement.destination]
          ++ bytes "': " ++ error.message)
  | none => pure ()

/-- Replace the files from an index on; those before it are done. -/
def replaceFrom (staging : FileName) (done : List PendingReplacement) : List PendingReplacement → Step Name Unit
  | [] => pure ()
  | replacement :: pending => do
      backUp volume outputDirectory staging done replacement pending
      let replacement := { replacement with backedUp := replacement.hadOriginal }
      install volume outputDirectory staging done replacement pending
      replaceFrom staging (done ++ [{ replacement with installed := true }]) pending

/-! ## Committing -/

/-- The output directory, made if there is nothing. -/
def createRoot : Option (Entry Name) → Option FileError × Option (Entry Name)
  | none => (none, some (.directory fun _ => none))
  | some (.directory entries) => (none, some (.directory entries))
  | some (.file bytes) => (some ⟨.other, []⟩, some (.file bytes))
  | some (.link target) => (some ⟨.other, []⟩, some (.link target))

def createDirectories : Operation Name (Option FileError) :=
  attempt (fun fault root => (some fault.error, root)) createRoot

def outputStatus : Operation Name Bool :=
  attempt (fun _ root => (false, root)) fun root => (isDirectory root, root)

/-- The batch itself, before anything is touched. -/
def batchError (names : List FileName) : List ArtifactFile → Option Bytes
  | [] => none
  | file :: files =>
      if !isSafeFileName file.fileName then some (bytes "project artifact name is not a basename")
      else if !(bytes ".o").isSuffixOf file.fileName && !(bytes ".asm").isSuffixOf file.fileName then
        some (bytes "project artifact batch supports only .o and .asm")
      else if foldAscii file.fileName ∈ names then
        some (bytes "project artifact batch contains a colliding name: " ++ file.fileName)
      else batchError (foldAscii file.fileName :: names) files

/-- What happens between reserving the staging directory and its end. -/
def transact (staging : FileName) (files : List ArtifactFile) : Step Name Unit := do
  probe volume staging files
  stageFiles volume outputDirectory staging 0 files
  let replacements ← inspect volume outputDirectory 0 files
  replaceFrom volume outputDirectory staging [] replacements

/-- The output directory and the staging directory in it. -/
def openDirectory (sequence : Nat) : Step Name FileName := do
  let error ← (createDirectories : Operation Name (Option FileError))
  match error with
  | some error => stop (bytes "could not create project output directory: " ++ error.message)
  | none => do
      let present ← (outputStatus : Operation Name Bool)
      if present then reserve volume sequence 128
      else stop (bytes "project output path is not a directory")

def openTransaction (sequence : Nat) (files : List ArtifactFile) : Step Name FileName :=
  if files.isEmpty then stop (bytes "project artifact batch is empty")
  else
    match batchError [] files with
    | some message => stop message
    | none => openDirectory volume sequence

/-- What a commit leaves. -/
structure Commit (Name : Type) where
  error : Option Bytes
  /-- The staging directory that was made. -/
  staging : Option FileName
  /-- A rollback step failed. -/
  preserved : Bool
  /-- The error of the cleanup, which is ignored. -/
  ignored : Option FileError
  disk : Disk Name

def commitArtifactFiles (sequence : Nat) (files : List ArtifactFile) (disk : Disk Name) : Commit Name :=
  match (openTransaction volume sequence files).run disk with
  | (.error failure, disk) => ⟨some failure.message, none, false, none, disk⟩
  | (.ok staging, disk) =>
      match (transact volume outputDirectory staging files).run disk with
      | (.error ⟨message, true⟩, disk) => ⟨some message, some staging, true, none, disk⟩
      | (.error ⟨message, false⟩, disk) =>
          let (ignored, disk) := removeAll [volume.key staging] disk
          ⟨some message, some staging, false, ignored, disk⟩
      | (.ok (), disk) =>
          let (ignored, disk) := removeAll [volume.key staging] disk
          ⟨none, some staging, false, ignored, disk⟩

end Transaction

end Tala.Driver.ProjectArtifacts
