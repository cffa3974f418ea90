import Mathlib.Data.List.Nodup
import Mathlib.Data.List.TakeWhile
import Tala.Frontend.SourceGlobs

/-!
# Discovery finds the sources, however the tree is walked

A walk from one root shares the list of visited directories with the walks before it. What carries
the proof is that a visited directory, unless it is being walked, has all its files in the state.
-/

namespace Tala.Frontend.SourceSet

/-! ## The tree -/

/-- The names lead from one node to another. -/
inductive Reaches : Node → List Name → Node → Prop
  | here (node : Node) : Reaches node [] node
  | step {entries : List (Name × Node)} {name : Name} {child node : Node} {rest : List Name}
      (hmem : (name, child) ∈ entries) (h : Reaches child rest node) :
      Reaches (.directory entries) (name :: rest) node

variable {s : List Name} {name : Name} {a : Node} {entries : List (Name × Node)} {host : Host}

theorem Reaches.trans {b c : Node} {t : List Name} (h : Reaches a s b) (h' : Reaches b t c) :
    Reaches a (s ++ t) c := by
  induction h with
  | here => exact h'
  | step hmem _ ih => exact .step hmem (ih h')

/-- An entry of a directory lies one name further. -/
theorem Reaches.entry {child : Node} (h : Reaches a s (.directory entries)) (hmem : (name, child) ∈ entries) :
    Reaches a (s ++ [name]) child :=
  h.trans (.step hmem (.here child))

theorem Reaches.split {c : Node} {t : List Name} (h : Reaches a (s ++ t) c) :
    ∃ b, Reaches a s b ∧ Reaches b t c := by
  induction s generalizing a with
  | nil => exact ⟨a, .here a, h⟩
  | cons name s ih =>
    cases h with
    | step hmem h =>
      obtain ⟨b, hb, hc⟩ := ih h
      exact ⟨b, .step hmem hb, hc⟩

/-- Nothing lies below a file. -/
theorem Reaches.of_file {node : Node} (h : Reaches .file s node) : s = [] ∧ node = .file := by
  cases h
  exact ⟨rfl, rfl⟩

theorem reaches_of_find? {node found : Node} {names : List Name} (h : node.find? names = some found) :
    Reaches node names found := by
  fun_induction Node.find? node names with
  | case1 node => exact Option.some.inj h ▸ .here node
  | case2 => cases h
  | case3 entries name rest entry hentry ih =>
    have hname : entry.1 = name := by simpa using List.find?_some hentry
    exact hname ▸ .step (List.mem_of_find?_eq_some hentry) (ih h)
  | case4 => cases h

/-- A directory holds names, and no two that the platform takes for one. -/
structure WellNamed (host : Host) (project : Project) : Prop where
  isName : ∀ {path : List Name} {entries : List (Name × Node)},
    Reaches (.directory project.entries) path (.directory entries) → ∀ e ∈ entries, IsName e.1
  distinct : ∀ {path : List Name} {entries : List (Name × Node)},
    Reaches (.directory project.entries) path (.directory entries) →
      (entries.map fun e => foldName host e.1).Nodup

section Tree

variable {host : Host} {project : Project}

section Named

variable (hnamed : WellNamed host project)

include hnamed

variable {path : List Name}

/-- Every name on the way is a name. -/
theorem WellNamed.names {b : Node} (ha : Reaches (.directory project.entries) path a) (h : Reaches a s b) :
    ∀ n ∈ s, IsName n := by
  induction h generalizing path with
  | here => exact fun n hn => absurd hn List.not_mem_nil
  | step hmem _ ih =>
    intro n hn
    rcases List.mem_cons.mp hn with rfl | hn
    · exact hnamed.isName ha _ hmem
    · exact ih (ha.entry hmem) n hn

/-- Paths that the platform takes for one are one. -/
theorem WellNamed.unique {path s t : List Name} {a b c : Node}
    (ha : Reaches (.directory project.entries) path a) (hs : Reaches a s b) (ht : Reaches a t c)
    (h : s.map (foldName host) = t.map (foldName host)) : s = t ∧ b = c := by
  induction hs generalizing path t with
  | here =>
    have hnil : t = [] := List.map_eq_nil_iff.mp h.symm
    subst hnil
    cases ht
    exact ⟨rfl, rfl⟩
  | step hmem _ ih =>
    cases ht with
    | here => cases h
    | step hmem' ht =>
      simp only [List.map_cons, List.cons.injEq] at h
      have hentry := List.inj_on_of_nodup_map (hnamed.distinct ha) hmem hmem' h.1
      obtain ⟨rfl, rfl⟩ := Prod.mk.inj hentry
      obtain ⟨rfl, rfl⟩ := ih (ha.entry hmem) ht h.2
      exact ⟨rfl, rfl⟩

variable (project) in
/-- A path of the project. -/
def InProject (names : List Name) : Prop := ∃ node, Reaches (.directory project.entries) names node

theorem WellNamed.exists_names {names : List Name} (h : InProject project names) : ∀ n ∈ names, IsName n :=
  h.elim fun _ h => hnamed.names (.here _) h

variable {other : List Name}

theorem WellNamed.exists_unique {names : List Name} (h : InProject project names) (h' : InProject project other)
    (heq : (pathSegments names).map (foldName host) = (pathSegments other).map (foldName host)) :
    names = other := by
  have hfold := foldName_pathSegments (hnamed.exists_names h) (hnamed.exists_names h') heq
  obtain ⟨b, hb⟩ := h
  obtain ⟨c, hc⟩ := h'
  exact (hnamed.unique (.here _) hb hc hfold).1

/-- Two paths of the project are equal when their texts are. -/
theorem pathEqual_iff {names : List Name} (h : InProject project names) (h' : InProject project other) :
    pathEqual host (makeRelative names) (makeRelative other) = true ↔ names = other := by
  constructor
  · intro heq
    have hsegments := congrArg segments (beq_iff_eq.mp heq)
    rw [pathOrderingKey_segments, pathOrderingKey_segments,
      segments_makeRelative (hnamed.exists_names h), segments_makeRelative (hnamed.exists_names h')]
      at hsegments
    exact hnamed.exists_unique h h' hsegments
  · rintro rfl
    exact beq_self_eq_true _

/-- Two paths of the project have different places in the order. -/
theorem relativeTo_key {names : List Name} (h : InProject project names) (h' : InProject project other)
    (heq : pathOrderingKey host (relativeTo host names) =
      pathOrderingKey host (relativeTo host other)) : names = other := by
  have hsegments := congrArg segments heq
  rw [pathOrderingKey_segments, pathOrderingKey_segments,
    segments_relativeTo (hnamed.exists_names h), segments_relativeTo (hnamed.exists_names h')]
    at hsegments
  exact hnamed.exists_unique h h' hsegments

theorem canonicalMember_iff {names : List Name} {visited : List (List Name)} (h : InProject project names)
    (hvisited : ∀ v ∈ visited, InProject project v) :
    canonicalMember host names visited = true ↔ names ∈ visited := by
  unfold canonicalMember pathMember
  rw [List.any_map, List.any_eq_true]
  constructor
  · rintro ⟨v, hv, heq⟩
    exact (pathEqual_iff hnamed h (hvisited v hv)).mp heq ▸ hv
  · exact fun hmem => ⟨names, hmem, (pathEqual_iff hnamed h h).mpr rfl⟩

end Named

end Tree

/-! ## The extension -/

/-- The extension of a source file. -/
def talaExtension : FilePath := ['.', 't', 'a', 'l', 'a']

theorem takeExtension_tala (name : Name) : takeExtension name = talaExtension ↔ talaExtension <:+ name := by
  unfold takeExtension talaExtension
  constructor
  · intro h
    split at h
    · next hdot =>
      have hlast : (name.reverse.takeWhile (· ≠ '.')).reverse = ['t', 'a', 'l', 'a'] :=
        (List.cons.inj h).2
      have hsplit := List.takeWhile_append_dropWhile (p := (· ≠ '.')) (l := name.reverse)
      cases hdrop : name.reverse.dropWhile (· ≠ '.') with
      | nil =>
        have hall := List.dropWhile_eq_nil_iff.mp hdrop '.' (List.mem_reverse.mpr hdot)
        exact absurd hall (by decide)
      | cons c more =>
        have hc : c = '.' := by
          have hhead := List.head?_dropWhile_not (· ≠ '.') name.reverse
          rw [hdrop] at hhead
          simpa using hhead
        rw [hdrop, hc] at hsplit
        have hname : name = (name.reverse.takeWhile (· ≠ '.') ++ '.' :: more).reverse := by
          rw [hsplit, List.reverse_reverse]
        rw [List.reverse_append, hlast, List.reverse_cons, List.append_assoc] at hname
        exact ⟨more.reverse, hname.symm⟩
    · cases h
  · rintro ⟨front, rfl⟩
    simp

/-! ## The walk -/

section Walk

variable (host : Host) (project : Project) (excludes : List FilePath)

/-- No glob matches the path or the path of a directory that contains it, the project root included
as the path without names. -/
def Passes (names : List Name) : Prop :=
  ∀ p ∈ excludes, ∀ above, above <+: names → ¬ GlobMatches host (globNames p) above

/-- No glob matches the dot that spells the project root. -/
def DotPasses : Prop := ∀ p ∈ excludes, ¬ GlobMatches host (globNames p) [['.']]

/-- A source file that the globs leave. -/
structure Source (names : List Name) : Prop where
  reaches : Reaches (.directory project.entries) names .file
  extension : ∃ front name, names = front ++ [name] ∧ talaExtension <:+ name
  passes : Passes host excludes names

/-- All source files at or below a path are in the state. -/
def Complete (path : List Name) (state : WalkState) : Prop :=
  ∀ names, path <+: names → Source host project excludes names →
    ∃ f ∈ state.files, f.canonicalPath = names

/-- What holds between two steps of a walk: `From` are the paths a walk may come to, and `Open` the
directories being walked. -/
structure WalkInv (From Open : List Name → Prop) (state : WalkState) : Prop where
  problems : state.problems = []
  sound : ∀ f ∈ state.files, f.relativePath = relativeTo host f.canonicalPath ∧
    Source host project excludes f.canonicalPath ∧ From f.canonicalPath
  visited : ∀ v ∈ state.visitedDirectories, InProject project v
  complete : ∀ v ∈ state.visitedDirectories, Open v ∨ Complete host project excludes v state

/-- A walk ends in a state that keeps the invariant and the files found. -/
structure WalkStep (From Open : List Name → Prop) (state state' : WalkState) : Prop where
  inv : WalkInv host project excludes From Open state'
  files : state.files ⊆ state'.files

variable {host project excludes} {From Open : List Name → Prop} {state state' state'' : WalkState}

theorem WalkStep.trans (h : WalkStep host project excludes From Open state state')
    (h' : WalkStep host project excludes From Open state' state'') :
    WalkStep host project excludes From Open state state'' :=
  ⟨h'.inv, fun _ hf => h'.files (h.files hf)⟩

theorem WalkStep.refl (h : WalkInv host project excludes From Open state) :
    WalkStep host project excludes From Open state state := ⟨h, fun _ hf => hf⟩

variable {path parent : List Name}

theorem Complete.mono (h : Complete host project excludes path state)
    (hfiles : state.files ⊆ state'.files) : Complete host project excludes path state' := by
  intro names hpath hsource
  obtain ⟨f, hf, heq⟩ := h names hpath hsource
  exact ⟨f, hfiles hf, heq⟩

/-- Nothing below a path that a glob matches is a source file. -/
theorem complete_of_not_passes (h : ¬ Passes host excludes path) :
    Complete host project excludes path state := by
  intro names hpath hsource
  refine absurd (fun p hp above habove => ?_) h
  exact hsource.passes p hp above (habove.trans hpath)

/-- A path passes when the directory it is in does and no glob matches it. -/
theorem Passes.concat (h : Passes host excludes parent)
    (hself : ∀ p ∈ excludes, ¬ GlobMatches host (globNames p) (parent ++ [name])) :
    Passes host excludes (parent ++ [name]) := by
  intro p hp above habove
  rcases List.prefix_concat_iff.mp habove with rfl | habove
  · exact hself p hp
  · exact h p hp above habove

variable (hnamed : WellNamed host project)

include hnamed in
/-- A directory the test lets through passes, and so does one that is not the project root. -/
theorem passes_of_not_excluded (hpath : InProject project path)
    (h : ¬ excluded host (excludes.map (normalizePattern host)) (relativeTo host path) true = true) :
    Passes host excludes path ∧ (path = [] → DotPasses host excludes) := by
  rw [excluded_directory (hnamed.exists_names hpath)] at h
  constructor
  · intro p hp above habove hmatch
    refine h ⟨p, hp, above, ?_, hmatch⟩
    by_cases hne : path = []
    · subst hne
      rw [List.prefix_nil.mp habove]
      exact List.nil_prefix
    · rwa [pathSegments, if_neg hne]
  · rintro rfl p hp hmatch
    exact h ⟨p, hp, [['.']], List.prefix_refl _, hmatch⟩

include hnamed in
theorem not_passes_of_excluded (hpath : InProject project path)
    (h : excluded host (excludes.map (normalizePattern host)) (relativeTo host path) true = true)
    (hdot : path = [] → DotPasses host excludes) : ¬ Passes host excludes path := by
  rw [excluded_directory (hnamed.exists_names hpath)] at h
  obtain ⟨p, hp, above, habove, hmatch⟩ := h
  intro hpasses
  by_cases hne : path = []
  · rw [pathSegments, if_pos hne] at habove
    rcases List.prefix_concat_iff.mp (show above <+: [] ++ [['.']] from habove) with rfl | habove
    · exact hdot hne p hp hmatch
    · rw [List.prefix_nil.mp habove] at hmatch
      exact hpasses p hp [] List.nil_prefix hmatch
  · rw [pathSegments, if_neg hne] at habove
    exact hpasses p hp above habove hmatch

include hnamed in
theorem considerFile_step (hreach : Reaches (.directory project.entries) (parent ++ [name]) .file)
    (hpasses : Passes host excludes parent) (hfrom : From (parent ++ [name]))
    (hinv : WalkInv host project excludes From Open state) :
    WalkStep host project excludes From Open state
        (considerFile host (excludes.map (normalizePattern host)) state parent name) ∧
      Complete host project excludes (parent ++ [name])
        (considerFile host (excludes.map (normalizePattern host)) state parent name) := by
  have hproject : InProject project (parent ++ [name]) := ⟨_, hreach⟩
  -- nothing lies below a file
  have hself : ∀ {names}, parent ++ [name] <+: names → Source host project excludes names →
      names = parent ++ [name] := by
    rintro _ ⟨rest, rfl⟩ hsource
    obtain ⟨b, hb, hrest⟩ := hsource.reaches.split
    obtain ⟨-, rfl⟩ := hnamed.unique (.here _) hreach hb rfl
    rw [hrest.of_file.1, List.append_nil]
  unfold considerFile
  simp only []
  split
  · next hext =>
    refine ⟨.refl hinv, fun names hpath hsource => absurd ?_ hext⟩
    obtain ⟨front, last, heq, hlast⟩ := hsource.extension
    rw [hself hpath hsource] at heq
    rw [(List.append_singleton_inj.mp heq).2]
    exact (takeExtension_tala last).mpr hlast
  · next hext =>
    split
    · next hexcluded =>
      obtain ⟨p, hp, hmatch⟩ :=
        (excluded_file (hnamed.exists_names hproject) (by simp) excludes).mp hexcluded
      exact ⟨.refl hinv, complete_of_not_passes fun h => h p hp _ (List.prefix_refl _) hmatch⟩
    · next hexcluded =>
      have hsource : Source host project excludes (parent ++ [name]) := by
        refine ⟨hreach, ⟨parent, name, rfl, (takeExtension_tala name).mp (not_not.mp hext)⟩, ?_⟩
        refine hpasses.concat fun p hp hmatch => hexcluded ?_
        exact (excluded_file (hnamed.exists_names hproject) (by simp) excludes).mpr ⟨p, hp, hmatch⟩
      refine ⟨⟨⟨hinv.problems, ?_, hinv.visited, ?_⟩, List.subset_cons_self ..⟩, ?_⟩
      · intro f hf
        rcases List.mem_cons.mp hf with rfl | hf
        · exact ⟨rfl, hsource, hfrom⟩
        · exact hinv.sound f hf
      · exact fun v hv => (hinv.complete v hv).imp_right fun h => h.mono (List.subset_cons_self ..)
      · intro names hpath hnames
        exact ⟨_, List.mem_cons_self .., (hself hpath hnames).symm⟩

variable {directory : List Name}

/-- A directory is complete when each of its entries is. -/
theorem complete_of_entries (hnamed : WellNamed host project)
    (hreach : Reaches (.directory project.entries) directory (.directory entries))
    (h : ∀ e ∈ entries, Complete host project excludes (directory ++ [e.1]) state) :
    Complete host project excludes directory state := by
  rintro _ ⟨rest, rfl⟩ hsource
  obtain ⟨b, hb, hrest⟩ := hsource.reaches.split
  obtain ⟨-, rfl⟩ := hnamed.unique (.here _) hreach hb rfl
  cases hrest with
  | step hmem hrest =>
    rename_i name child rest
    refine h _ hmem _ ⟨rest, ?_⟩ hsource
    rw [List.append_assoc]
    rfl

/-- Entering a directory opens it. -/
theorem WalkInv.enter (hproject : InProject project directory)
    (hinv : WalkInv host project excludes From Open state) :
    WalkInv host project excludes From (fun v => Open v ∨ v = directory)
      { state with visitedDirectories := directory :: state.visitedDirectories } := by
  refine ⟨hinv.problems, hinv.sound, fun v hv => ?_, fun v hv => ?_⟩
  · rcases List.mem_cons.mp hv with rfl | hv
    · exact hproject
    · exact hinv.visited v hv
  · rcases List.mem_cons.mp hv with rfl | hv
    · exact .inl (.inr rfl)
    · exact (hinv.complete v hv).imp_left .inl

/-- Leaving a complete directory closes it. -/
theorem WalkInv.leave (hinv : WalkInv host project excludes From (fun v => Open v ∨ v = directory) state)
    (hcomplete : Complete host project excludes directory state) :
    WalkInv host project excludes From Open state := by
  refine ⟨hinv.problems, hinv.sound, hinv.visited, fun v hv => ?_⟩
  rcases hinv.complete v hv with (h | rfl) | h
  · exact .inl h
  · exact .inr hcomplete
  · exact .inr h

variable (hclosed : ∀ a b, a <+: b → From a → From b)

include hnamed hclosed

-- some use them through the recursion only
set_option linter.unusedSectionVars false in
mutual

/-- **A walk of a directory** finds the source files below it; the project root is walked only when
no glob matches its dot. -/
theorem walkDirectory_step (Open : List Name → Prop) (state : WalkState)
    (directory : List Name) (entries : List (Name × Node))
    (hopen : ∀ v, Open v → v <+: directory ∧ v ≠ directory)
    (hreach : Reaches (.directory project.entries) directory (.directory entries))
    (hfrom : (directory = [] → DotPasses host excludes) → From directory)
    (hinv : WalkInv host project excludes From Open state) :
    WalkStep host project excludes From Open state
        (walkDirectory host (excludes.map (normalizePattern host)) state directory entries) ∧
      ((directory = [] → DotPasses host excludes) → Complete host project excludes directory
        (walkDirectory host (excludes.map (normalizePattern host)) state directory entries)) := by
  have hproject : InProject project directory := ⟨_, hreach⟩
  rw [walkDirectory]
  split
  · next hvisited =>
    -- visited before and not being walked: its files are there
    have hmem := (canonicalMember_iff hnamed hproject hinv.visited).mp hvisited
    refine ⟨.refl hinv, fun _ => (hinv.complete directory hmem).resolve_left fun h => ?_⟩
    exact (hopen directory h).2 rfl
  · split
    · next hexcluded =>
      exact ⟨.refl hinv, fun hdot =>
        complete_of_not_passes (not_passes_of_excluded hnamed hproject hexcluded hdot)⟩
    · next hexcluded =>
      obtain ⟨hpasses, hdot⟩ := passes_of_not_excluded hnamed hproject hexcluded
      have hopen' : ∀ v, (Open v ∨ v = directory) → v <+: directory := by
        rintro v (h | rfl)
        · exact (hopen v h).1
        · exact List.prefix_refl v
      have hsorted : ∀ e ∈ sortEntries host entries, e ∈ entries := fun e he =>
        (List.mergeSort_perm entries _).mem_iff.mp he
      obtain ⟨hstep, hentries⟩ := walkEntries_step (fun v => Open v ∨ v = directory)
        { state with visitedDirectories := directory :: state.visitedDirectories } directory
        (sortEntries host entries) hopen' (fun e he => hreach.entry (hsorted e he)) hpasses
        (hfrom hdot) (hinv.enter hproject)
      have hcomplete := complete_of_entries hnamed hreach fun e he =>
        hentries e ((List.mergeSort_perm entries _).mem_iff.mpr he)
      exact ⟨⟨hstep.inv.leave hcomplete, hstep.files⟩, fun _ => hcomplete⟩
termination_by (weightOf entries, 1)
decreasing_by
  rw [weightOf_sortEntries]
  exact Prod.Lex.right _ (by omega)

theorem walkEntries_step (Open : List Name → Prop) (state : WalkState)
    (parent : List Name) (entries : List (Name × Node)) (hopen : ∀ v, Open v → v <+: parent)
    (hreach : ∀ e ∈ entries, Reaches (.directory project.entries) (parent ++ [e.1]) e.2)
    (hpasses : Passes host excludes parent) (hfrom : From parent)
    (hinv : WalkInv host project excludes From Open state) :
    WalkStep host project excludes From Open state
        (walkEntries host (excludes.map (normalizePattern host)) parent state entries) ∧
      ∀ e ∈ entries, Complete host project excludes (parent ++ [e.1])
        (walkEntries host (excludes.map (normalizePattern host)) parent state entries) := by
  match entries with
  | [] =>
    rw [walkEntries]
    exact ⟨.refl hinv, fun e he => absurd he List.not_mem_nil⟩
  | entry :: rest =>
    rw [walkEntries]
    obtain ⟨hstep, hentry⟩ := walkEntry_step Open state parent entry hopen
      (hreach entry (List.mem_cons_self ..)) hpasses hfrom hinv
    obtain ⟨hsteps, hrest⟩ := walkEntries_step Open _ parent rest hopen
      (fun e he => hreach e (List.mem_cons_of_mem _ he)) hpasses hfrom hstep.inv
    refine ⟨hstep.trans hsteps, fun e he => ?_⟩
    rcases List.mem_cons.mp he with rfl | he
    · exact hentry.mono hsteps.files
    · exact hrest e he
termination_by (weightOf entries, 0)
decreasing_by all_goals exact Prod.Lex.left _ _ (by simp only [weightOf]; omega)

theorem walkEntry_step (Open : List Name → Prop) (state : WalkState)
    (parent : List Name) (entry : Name × Node) (hopen : ∀ v, Open v → v <+: parent)
    (hreach : Reaches (.directory project.entries) (parent ++ [entry.1]) entry.2)
    (hpasses : Passes host excludes parent) (hfrom : From parent)
    (hinv : WalkInv host project excludes From Open state) :
    WalkStep host project excludes From Open state
        (walkEntry host (excludes.map (normalizePattern host)) parent state entry) ∧
      Complete host project excludes (parent ++ [entry.1])
        (walkEntry host (excludes.map (normalizePattern host)) parent state entry) := by
  have hfrom' : From (parent ++ [entry.1]) := hclosed _ _ (List.prefix_append ..) hfrom
  match entry with
  | (name, .directory entries) =>
    rw [walkEntry]
    have hne : parent ++ [name] ≠ [] := by simp
    have hopen' : ∀ v, Open v → v <+: parent ++ [name] ∧ v ≠ parent ++ [name] := by
      refine fun v hv => ⟨(hopen v hv).trans (List.prefix_append ..), fun heq => ?_⟩
      have hlength := (hopen v hv).length_le
      rw [heq, List.length_append, List.length_singleton] at hlength
      omega
    obtain ⟨hstep, hcomplete⟩ := walkDirectory_step Open state (parent ++ [name])
      entries hopen' hreach (fun _ => hfrom') hinv
    exact ⟨hstep, hcomplete fun h => absurd h hne⟩
  | (name, .file) =>
    rw [walkEntry]
    exact considerFile_step hnamed hreach hpasses hfrom' hinv
termination_by (entry.2.weight, 0)
decreasing_by exact Prod.Lex.left _ _ (by simp only [Node.weight]; omega)

end

end Walk

/-! ## The result of a discovery -/

theorem nubByFrom_spec {α : Type} {eq : α → α → Bool} {seen l : List α}
    (heq : ∀ x ∈ seen ++ l, ∀ y ∈ seen ++ l, eq x y = true ↔ x = y) :
    (∀ x, x ∈ nubByFrom eq seen l ↔ x ∈ l ∧ x ∉ seen) ∧ (nubByFrom eq seen l).Nodup := by
  induction l generalizing seen with
  | nil => exact ⟨fun x => by simp [nubByFrom], List.nodup_nil⟩
  | cons y rest ih =>
    have hany : (seen.any fun x => eq x y) = true ↔ y ∈ seen := by
      rw [List.any_eq_true]
      constructor
      · rintro ⟨x, hx, hxy⟩
        exact (heq x (by simp [hx]) y (by simp)).mp hxy ▸ hx
      · exact fun hy => ⟨y, hy, (heq y (by simp) y (by simp)).mpr rfl⟩
    rw [nubByFrom]
    split
    · next hseen =>
      obtain ⟨hmem, hnodup⟩ := ih fun x hx z hz =>
        heq x (by simp at hx ⊢; tauto) z (by simp at hz ⊢; tauto)
      refine ⟨fun x => ?_, hnodup⟩
      rw [hmem, List.mem_cons]
      constructor
      · exact fun h => ⟨.inr h.1, h.2⟩
      · rintro ⟨rfl | hx, hnot⟩
        · exact absurd (hany.mp hseen) hnot
        · exact ⟨hx, hnot⟩
    · next hseen =>
      obtain ⟨hmem, hnodup⟩ := @ih (y :: seen) fun x hx z hz =>
        heq x (by simp at hx ⊢; tauto) z (by simp at hz ⊢; tauto)
      constructor
      · intro x
        rw [List.mem_cons, hmem, List.mem_cons, List.mem_cons]
        constructor
        · rintro (rfl | ⟨hx, hnot⟩)
          · exact ⟨.inl rfl, fun h => hseen (hany.mpr h)⟩
          · exact ⟨.inr hx, fun h => hnot (.inr h)⟩
        · rintro ⟨hx, hnot⟩
          by_cases hxy : x = y
          · exact .inl hxy
          · exact .inr ⟨hx.resolve_left hxy, fun h => h.elim hxy hnot⟩
      · exact List.nodup_cons.mpr ⟨fun h => ((hmem y).mp h).2 (List.mem_cons_self ..), hnodup⟩

/-- Equal elements are dropped, and nothing else. -/
theorem nubBy_spec {α : Type} {eq : α → α → Bool} {l : List α} (heq : ∀ x ∈ l, ∀ y ∈ l, eq x y = true ↔ x = y) :
    (∀ x, x ∈ nubBy eq l ↔ x ∈ l) ∧ (nubBy eq l).Nodup := by
  obtain ⟨hmem, hnodup⟩ := @nubByFrom_spec _ _ [] l heq
  exact ⟨fun x => (hmem x).trans (by simp), hnodup⟩

section Discovery

variable (host : Host) (project : Project) (request : SourceSetRequest)

/-- The path is one that a configured root contains; the project root counts only when no glob
matches the dot that spells it. -/
def FromRoots (names : List Name) : Prop :=
  ∃ configured ∈ request.roots, ∃ start, project.locate configured = .inside start ∧
    start <+: names ∧ (start = [] → DotPasses host request.excludes)

/-- What a discovery is to find. -/
def Discovered (names : List Name) : Prop :=
  Source host project request.excludes names ∧ FromRoots host project request names

/-- Every configured root is a directory of the project. -/
def RootsInside : Prop :=
  ∀ configured ∈ request.roots, ∃ names entries, project.locate configured = .inside names ∧
    (Node.directory project.entries).find? names = some (.directory entries)

variable {host project request}

theorem FromRoots.closed {a b : List Name} (hab : a <+: b) (h : FromRoots host project request a) :
    FromRoots host project request b := by
  obtain ⟨configured, hmem, start, hlocate, hstart, hdot⟩ := h
  exact ⟨configured, hmem, start, hlocate, hstart.trans hab, hdot⟩

/-- The walks from the configured roots, one after the other. -/
theorem walkConfiguredRoots_step (hnamed : WellNamed host project)
    (hinside : RootsInside project request) (roots : List FilePath)
    (hroots : ∀ configured ∈ roots, configured ∈ request.roots) (state : WalkState)
    (hinv : WalkInv host project request.excludes (FromRoots host project request) (fun _ => False)
      state) :
    WalkStep host project request.excludes (FromRoots host project request) (fun _ => False) state
        (roots.foldl (walkConfiguredRoot host project (request.excludes.map (normalizePattern host)))
          state) ∧
      ∀ configured ∈ roots, ∀ start, project.locate configured = .inside start →
        (start = [] → DotPasses host request.excludes) →
        Complete host project request.excludes start
          (roots.foldl (walkConfiguredRoot host project (request.excludes.map (normalizePattern host)))
            state) := by
  induction roots generalizing state with
  | nil => exact ⟨.refl hinv, fun configured h => absurd h List.not_mem_nil⟩
  | cons configured rest ih =>
    obtain ⟨names, entries, hlocate, hfind⟩ :=
      hinside configured (hroots configured (List.mem_cons_self ..))
    have hwalk : walkConfiguredRoot host project (request.excludes.map (normalizePattern host)) state
        configured =
          walkDirectory host (request.excludes.map (normalizePattern host)) state names entries := by
      simp only [walkConfiguredRoot, hlocate, hfind]
    obtain ⟨hstep, hcomplete⟩ := walkDirectory_step hnamed (fun _ _ => FromRoots.closed)
      (fun _ => False) state names entries (fun _ h => h.elim) (reaches_of_find? hfind)
      (fun hdot => ⟨configured, hroots configured (List.mem_cons_self ..), names, hlocate,
        List.prefix_refl _, hdot⟩) hinv
    obtain ⟨hsteps, hrest⟩ := ih (fun c hc => hroots c (List.mem_cons_of_mem _ hc)) _ hstep.inv
    rw [List.foldl_cons, hwalk]
    refine ⟨hstep.trans hsteps, fun c hc start hstart hdot => ?_⟩
    rcases List.mem_cons.mp hc with rfl | hc
    · rw [hlocate] at hstart
      cases hstart
      exact (hcomplete hdot).mono hsteps.files
    · exact hrest c hc start hstart hdot

/-- The files after all walks are those to be found. -/
theorem mem_walked (hnamed : WellNamed host project) (hinside : RootsInside project request) :
    let walked := request.roots.foldl
      (walkConfiguredRoot host project (request.excludes.map (normalizePattern host))) emptyWalkState
    walked.problems = [] ∧ ∀ f, f ∈ walked.files ↔
      f.relativePath = relativeTo host f.canonicalPath ∧
        Discovered host project request f.canonicalPath := by
  intro walked
  have hempty : WalkInv host project request.excludes (FromRoots host project request)
      (fun _ => False) emptyWalkState :=
    ⟨rfl, fun f hf => absurd hf List.not_mem_nil, fun v hv => absurd hv List.not_mem_nil,
      fun v hv => absurd hv List.not_mem_nil⟩
  obtain ⟨hstep, hcomplete⟩ := walkConfiguredRoots_step hnamed hinside request.roots
    (fun _ h => h) emptyWalkState hempty
  refine ⟨hstep.inv.problems, fun f => ⟨hstep.inv.sound f, ?_⟩⟩
  rintro ⟨hrelative, hsource, configured, hmem, start, hlocate, hstart, hdot⟩
  obtain ⟨g, hg, heq⟩ := hcomplete configured hmem start hlocate hdot _ hstart hsource
  have hfg : g = f := by
    have hrelative' := (hstep.inv.sound g hg).1
    rw [heq, ← hrelative] at hrelative'
    cases f
    cases g
    exact DiscoveredFile.mk.injEq .. ▸ ⟨heq, hrelative'⟩
  exact hfg ▸ hg

end Discovery

/-! ## A project with one file -/

/-- A host that compares characters as they are. -/
def exactHost : Host := ⟨false, id, fun _ => Iff.rfl, fun _ => Iff.rfl⟩

/-- A host that takes one capital letter for the small one. -/
def foldingHost : Host where
  mingw32 := true
  toLower c := if c = 'A' then 'a' else c
  toLower_slash := by
    intro c
    split
    · next h => rw [h]; decide
    · rfl
  toLower_dot := by
    intro c
    split
    · next h => rw [h]; decide
    · rfl

/-- A project that holds one file; every configured root is the project root. -/
def singleFile (name : Name) : Project := ⟨['/', 'p'], [(name, .file)], fun _ => .inside []⟩

def aTala : Name := ['a', '.', 't', 'a', 'l', 'a']

theorem wellNamed_singleFile (hname : IsName name) : WellNamed host (singleFile name) := by
  have honly : ∀ {path : List Name} {entries : List (Name × Node)},
      Reaches (.directory (singleFile name).entries) path (.directory entries) →
        entries = [(name, .file)] := by
    intro path entries h
    cases h with
    | here => rfl
    | step hmem h =>
      obtain ⟨-, rfl⟩ := Prod.mk.inj (List.mem_singleton.mp hmem)
      cases h
  constructor
  · intro path entries h e he
    rw [honly h, List.mem_singleton] at he
    rw [he]
    exact hname
  · intro path entries h
    rw [honly h]
    exact List.nodup_singleton _

theorem rootsInside_singleFile (name : Name) (request : SourceSetRequest) :
    RootsInside (singleFile name) request :=
  fun _ _ => ⟨[], [(name, .file)], rfl, rfl⟩

/-- The report of a discovery that finds nothing. -/
def nothingFound : Except (List Diagnostic) (List DiscoveredFile) :=
  .error [sourceProblem "TAS0007"
    "configured source roots contain no non-excluded .tala files".toList]

theorem discoverFromRoots_nothing {project : Project} {request : SourceSetRequest}
    (hroots : request.roots ≠ []) (visited : List (List Name)) (h : request.roots.foldl
      (walkConfiguredRoot host project (request.excludes.map (normalizePattern host)))
      emptyWalkState = ⟨visited, [], []⟩) :
    discoverFromRoots host project request = nothingFound := by
  simp [discoverFromRoots, hroots, h, uniqueFiles, nubBy, nubByFrom, nothingFound]

/-- A walk from an excluded project root finds nothing. -/
theorem discoverFromRoots_excludedRoot {glob : FilePath}
    {above : List FilePath} (habove : above <+: [['.']]) (hmatch : GlobMatches host (globNames glob) above) :
    discoverFromRoots host (singleFile name) ⟨[['.']], [glob]⟩ = nothingFound := by
  have hexcluded : excluded host [normalizePattern host glob] (relativeTo host []) true = true :=
    (excluded_directory (fun n hn => absurd hn List.not_mem_nil) [glob]).mpr
      ⟨glob, List.mem_singleton_self glob, above, habove, hmatch⟩
  refine discoverFromRoots_nothing (List.cons_ne_nil _ _) [] ?_
  simp only [List.foldl_cons, List.foldl_nil, List.map_cons, List.map_nil, walkConfiguredRoot,
    singleFile, Node.find?]
  rw [walkDirectory, if_neg (by simp [canonicalMember, pathMember, emptyWalkState]), if_pos hexcluded]
  rfl

/-- A name with a backslash in it. -/
def backslashName : Name := ['a', backslash, 'b', '.', 't', 'a', 'l', 'a']

theorem backslashName_excluded :
    excluded exactHost [normalizePattern exactHost ['a', '/', '*']]
      (relativeTo exactHost ([] ++ [backslashName])) false = true := by
  have hpattern : segments (normalizePattern exactHost
      (normalizePattern exactHost ['a', '/', '*'])) = [['a'], ['*']] := by decide
  have hpath : segments (normalizeSourcePath exactHost (normalizeSourcePath exactHost
      (relativeTo exactHost ([] ++ [backslashName])))) = [['a'], ['b', '.', 't', 'a', 'l', 'a']] := by
    decide
  simp only [excluded, List.any_cons, List.any_nil, Bool.or_false, Bool.false_and, if_false,
    Bool.false_eq_true]
  rw [matchesGlob_iff, hpattern, hpath, globMatches_cons (by decide)]
  refine ⟨_, _, rfl, ?_, (globMatches_cons (by decide)).mpr ⟨_, _, rfl, ?_, globMatches_nil.mpr rfl⟩⟩
  · exact (segmentSpells_cons (by decide)).mpr
      ⟨'a', [], rfl, .inr (by decide), segmentSpells_nil.mpr rfl⟩
  · exact Library.Wildcard.spells_only_star (by rfl) _

theorem discover_backslashName :
    discoverFromRoots exactHost (singleFile backslashName) ⟨[['.']], [['a', '/', '*']]⟩ =
      nothingFound := by
  have hwalk : ∀ state : WalkState, considerFile exactHost
      [normalizePattern exactHost ['a', '/', '*']] state [] backslashName = state := by
    intro state
    unfold considerFile
    simp only []
    rw [if_neg (by decide), if_pos backslashName_excluded]
  by_cases hexcluded : excluded exactHost [normalizePattern exactHost ['a', '/', '*']]
      (relativeTo exactHost []) true = true
  · refine discoverFromRoots_nothing (List.cons_ne_nil _ _) [] ?_
    simp [walkConfiguredRoot, singleFile, Node.find?, walkDirectory, hexcluded, canonicalMember,
      pathMember, emptyWalkState]
  · refine discoverFromRoots_nothing (List.cons_ne_nil _ _) [[]] ?_
    simp [walkConfiguredRoot, singleFile, Node.find?, walkDirectory, hexcluded, canonicalMember,
      pathMember, emptyWalkState, sortEntries, walkEntries, walkEntry, hwalk]

end Tala.Frontend.SourceSet
