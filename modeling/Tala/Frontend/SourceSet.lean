import Mathlib.Data.Char
import Mathlib.Data.List.Lex

/-!
# Discovery of the source files of a project

The project is a finite tree of directories and files below the project root, without links and
with every read succeeding; a canonical path is the list of names below the root. Paths and globs
are texts, and go through the same normalization as in the source before they are compared.
-/

namespace Tala.Frontend.SourceSet

abbrev FilePath := List Char

/-- A name of one directory entry. -/
abbrev Name := List Char

/-- The platform: `os == "mingw32"` and the case folding of characters. -/
structure Host where
  mingw32 : Bool
  toLower : Char → Char
  toLower_slash : ∀ c, toLower c = '/' ↔ c = '/'
  toLower_dot : ∀ c, toLower c = '.' ↔ c = '.'

def backslash : Char := Char.ofNat 92

/-! ## Path syntax of the platform -/

def pathSeparator (host : Host) : Char := if host.mingw32 then backslash else '/'

def isPathSeparator (host : Host) (c : Char) : Bool := c == '/' || (host.mingw32 && c == backslash)

def hasTrailingPathSeparator (host : Host) (path : FilePath) : Bool :=
  path.getLast?.any (isPathSeparator host)

/-- The components between separators. -/
def splitDirectories (host : Host) (path : FilePath) : List FilePath :=
  (path.splitOnP (isPathSeparator host)).filter (· ≠ [])

def joinPath (host : Host) (names : List FilePath) : FilePath :=
  [pathSeparator host].intercalate names

/-- The path names a directory by its spelling: a separator, or a separator and a dot, at its end. -/
def isDirPath (host : Host) (path : FilePath) : Bool :=
  hasTrailingPathSeparator host path ||
    (path.getLast? == some '.' && hasTrailingPathSeparator host path.dropLast)

/-- One separator between components, no `.` components, and one leading and one trailing
separator where the path has some. -/
def normalise (host : Host) (path : FilePath) : FilePath :=
  let drive := path.takeWhile (isPathSeparator host)
  let rest := path.dropWhile (isPathSeparator host)
  let names := (splitDirectories host rest).filter (· ≠ ['.'])
  let result :=
    if drive = [] then (if names = [] then ['.'] else joinPath host names)
    else pathSeparator host :: joinPath host names
  if isDirPath host rest && !hasTrailingPathSeparator host result then
    result ++ [pathSeparator host]
  else result

/-- The extension begins at the last dot. -/
def takeExtension (name : Name) : FilePath :=
  if '.' ∈ name then '.' :: (name.reverse.takeWhile (· ≠ '.')).reverse else []

/-! ## Normal forms of paths and globs -/

def slash (c : Char) : Char := if c = backslash then '/' else c

def collapseSlashes : FilePath → FilePath
  | [] => []
  | '/' :: '/' :: remaining => collapseSlashes ('/' :: remaining)
  | value :: remaining => value :: collapseSlashes remaining

def normalizeSourcePath (host : Host) (path : FilePath) : FilePath :=
  collapseSlashes ((normalise host path).map slash)

def dropCurrentPrefix : FilePath → FilePath
  | '.' :: '/' :: remaining => dropCurrentPrefix remaining
  | value => value.dropWhile (· == '/')

def trimTrailingSlash (value : FilePath) : FilePath := (value.reverse.dropWhile (· == '/')).reverse

def normalizePattern (host : Host) (value : FilePath) : FilePath :=
  trimTrailingSlash (dropCurrentPrefix (normalizeSourcePath host value))

def splitOnSlash (value : FilePath) : List FilePath := value.splitOnP (· == '/')

def segments (value : FilePath) : List FilePath := (splitOnSlash value).filter (· ≠ [])

/-! ## Globs -/

def pathCharacterEqual (host : Host) (left right : Char) : Bool :=
  if host.mingw32 then host.toLower left == host.toLower right else left == right

def matchSegment (host : Host) (pattern value : FilePath) : Bool :=
  match pattern, value with
  | [], [] => true
  | [], _ :: _ => false
  | c :: patternRest, value =>
    if c = '*' then
      matchSegment host patternRest value ||
        match value with
        | [] => false
        | _ :: valueRest => matchSegment host (c :: patternRest) valueRest
    else
      match value with
      | [] => false
      | actual :: valueRest =>
        (c == '?' || pathCharacterEqual host c actual) && matchSegment host patternRest valueRest
termination_by pattern.length + value.length
decreasing_by all_goals simp_wf <;> omega

def matchSegments (host : Host) (patterns values : List FilePath) : Bool :=
  match patterns, values with
  | [], [] => true
  | [], _ :: _ => false
  | patternSegment :: remaining, values =>
    if patternSegment = ['*', '*'] then
      matchSegments host remaining values ||
        match values with
        | [] => false
        | _ :: rest => matchSegments host (patternSegment :: remaining) rest
    else
      match values with
      | [] => false
      | pathSegment :: rest =>
        matchSegment host patternSegment pathSegment && matchSegments host remaining rest
termination_by patterns.length + values.length
decreasing_by all_goals simp_wf <;> omega

def matchesGlob (host : Host) (rawPattern rawPath : FilePath) : Bool :=
  matchSegments host (segments (normalizePattern host rawPattern))
    (segments (normalizeSourcePath host rawPath))

/-- A directory is tested with and without a trailing slash, and against the glob for everything
below a directory the pattern names. -/
def excluded (host : Host) (patterns : List FilePath) (relative : FilePath) (directory : Bool) : Bool :=
  let normalized := normalizeSourcePath host relative
  let candidates := if directory then [normalized, normalized ++ ['/']] else [normalized]
  patterns.any fun pattern =>
    candidates.any (matchesGlob host pattern) ||
      (directory && matchesGlob host (trimTrailingSlash pattern ++ ['/', '*', '*']) normalized)

def pathOrderingKey (host : Host) (value : FilePath) : FilePath :=
  if host.mingw32 then (normalizeSourcePath host value).map host.toLower
  else normalizeSourcePath host value

def pathEqual (host : Host) (left right : FilePath) : Bool :=
  pathOrderingKey host left == pathOrderingKey host right

def pathMember (host : Host) (value : FilePath) (paths : List FilePath) : Bool :=
  paths.any (pathEqual host value)

/-! ## The project -/

inductive Node
  | file
  | directory (entries : List (Name × Node))

/-- What a configured root resolves to. -/
inductive Location
  | outside (canonical : FilePath)
  | inside (names : List Name)

structure Project where
  root : FilePath
  entries : List (Name × Node)
  /-- Resolution of a configured root, a relative one from the project root. -/
  locate : FilePath → Location

structure Diagnostic where
  code : String
  message : FilePath
  deriving DecidableEq

def sourceProblem (code : String) (message : FilePath) : Diagnostic := ⟨code, message⟩

/-- The node a list of names leads to. -/
def Node.find? : Node → List Name → Option Node
  | node, [] => some node
  | .file, _ :: _ => none
  | .directory entries, name :: rest =>
    match entries.find? (fun entry => entry.1 = name) with
    | some entry => entry.2.find? rest
    | none => none

/-- `makeRelative` of the project root and a path below it. -/
def makeRelative (names : List Name) : FilePath :=
  if names = [] then ['.'] else ['/'].intercalate names

def relativeTo (host : Host) (names : List Name) : FilePath :=
  normalizeSourcePath host (makeRelative names)

/-- The canonical text of a path below the project root. -/
def canonicalText (project : Project) (names : List Name) : FilePath :=
  if names = [] then project.root else project.root ++ '/' :: ['/'].intercalate names

structure DiscoveredFile where
  canonicalPath : List Name
  relativePath : FilePath
  deriving DecidableEq

structure WalkState where
  visitedDirectories : List (List Name)
  files : List DiscoveredFile
  problems : List Diagnostic

def emptyWalkState : WalkState := ⟨[], [], []⟩

def addProblem (state : WalkState) (code : String) (message : FilePath) : WalkState :=
  { state with problems := sourceProblem code message :: state.problems }

/-- Canonical paths below one root are equal when what follows the root is. -/
def canonicalMember (host : Host) (names : List Name) (visited : List (List Name)) : Bool :=
  pathMember host (makeRelative names) (visited.map makeRelative)

/-! ## The walk -/

def considerFile (host : Host) (patterns : List FilePath) (state : WalkState) (parent : List Name)
    (name : Name) : WalkState :=
  let relative := relativeTo host (parent ++ [name])
  if takeExtension name ≠ ['.', 't', 'a', 'l', 'a'] then state
  else if excluded host patterns relative false then state
  else { state with files := ⟨parent ++ [name], relative⟩ :: state.files }

def sortEntries (host : Host) (entries : List (Name × Node)) : List (Name × Node) :=
  entries.mergeSort fun a b => decide (pathOrderingKey host a.1 ≤ pathOrderingKey host b.1)

mutual

/-- The number of nodes, with one more for each directory. -/
def Node.weight : Node → Nat
  | .file => 1
  | .directory entries => weightOf entries + 2

def weightOf : List (Name × Node) → Nat
  | [] => 0
  | entry :: rest => entry.2.weight + weightOf rest + 1

end

theorem weightOf_perm {entries others : List (Name × Node)} (h : entries.Perm others) :
    weightOf entries = weightOf others := by
  induction h with
  | nil => rfl
  | cons entry _ ih => simp only [weightOf, ih]
  | swap entry other rest => simp only [weightOf]; omega
  | trans _ _ ih ih' => exact ih.trans ih'

theorem weightOf_sortEntries (host : Host) (entries : List (Name × Node)) :
    weightOf (sortEntries host entries) = weightOf entries :=
  weightOf_perm (List.mergeSort_perm entries _)

mutual

def walkDirectory (host : Host) (patterns : List FilePath) (state : WalkState)
    (directory : List Name) (entries : List (Name × Node)) : WalkState :=
  if canonicalMember host directory state.visitedDirectories then state
  else if excluded host patterns (relativeTo host directory) true then state
  else
    walkEntries host patterns directory
      { state with visitedDirectories := directory :: state.visitedDirectories }
      (sortEntries host entries)
termination_by (weightOf entries, 1)
decreasing_by
  rw [weightOf_sortEntries]
  exact Prod.Lex.right _ (by omega)

def walkEntries (host : Host) (patterns : List FilePath) (parent : List Name) (state : WalkState)
    (entries : List (Name × Node)) : WalkState :=
  match entries with
  | [] => state
  | entry :: rest => walkEntries host patterns parent (walkEntry host patterns parent state entry) rest
termination_by (weightOf entries, 0)
decreasing_by all_goals exact Prod.Lex.left _ _ (by simp only [weightOf]; omega)

def walkEntry (host : Host) (patterns : List FilePath) (parent : List Name) (state : WalkState)
    (entry : Name × Node) : WalkState :=
  match entry with
  | (name, .directory entries) => walkDirectory host patterns state (parent ++ [name]) entries
  | (name, .file) => considerFile host patterns state parent name
termination_by (entry.2.weight, 0)
decreasing_by exact Prod.Lex.left _ _ (by simp only [Node.weight]; omega)

end

def walkConfiguredRoot (host : Host) (project : Project) (patterns : List FilePath)
    (state : WalkState) (configuredRoot : FilePath) : WalkState :=
  match project.locate configuredRoot with
  | .outside canonical =>
    addProblem state "TAS0009" ("source root escapes the project root: ".toList ++ canonical)
  | .inside names =>
    match (Node.directory project.entries).find? names with
    | some (.directory entries) => walkDirectory host patterns state names entries
    | _ =>
      addProblem state "TAS0010"
        ("source root is not a directory: ".toList ++ canonicalText project names)

/-- The first of equal elements stays; `seen` are the elements kept so far. -/
def nubByFrom {α : Type} (eq : α → α → Bool) (seen : List α) : List α → List α
  | [] => []
  | y :: rest =>
    if seen.any fun x => eq x y then nubByFrom eq seen rest
    else y :: nubByFrom eq (y :: seen) rest

def nubBy {α : Type} (eq : α → α → Bool) (values : List α) : List α := nubByFrom eq [] values

def uniqueFiles (host : Host) (files : List DiscoveredFile) : List DiscoveredFile :=
  nubBy (fun left right =>
    pathEqual host (makeRelative left.canonicalPath) (makeRelative right.canonicalPath)) files

structure SourceSetRequest where
  roots : List FilePath
  excludes : List FilePath

def discoverFromRoots (host : Host) (project : Project) (request : SourceSetRequest) :
    Except (List Diagnostic) (List DiscoveredFile) :=
  if request.roots = [] then
    .error [sourceProblem "TAS0006" "project has no configured source roots".toList]
  else
    let patterns := request.excludes.map (normalizePattern host)
    let walked := request.roots.foldl (walkConfiguredRoot host project patterns) emptyWalkState
    let ordered := (uniqueFiles host walked.files).mergeSort fun a b =>
      decide (pathOrderingKey host a.relativePath ≤ pathOrderingKey host b.relativePath)
    let discoveryProblems := walked.problems.reverse
    if discoveryProblems ≠ [] then .error discoveryProblems
    else if ordered = [] then
      .error [sourceProblem "TAS0007"
        "configured source roots contain no non-excluded .tala files".toList]
    else .ok ordered

end Tala.Frontend.SourceSet
