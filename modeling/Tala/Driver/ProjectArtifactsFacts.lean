import Tala.Driver.ProjectArtifacts

/-!
# `Driver.ProjectArtifactsFacts` — committing is all or nothing

`Tracking` is the invariant of the replacements: what the flags of each say about its destination and its
backup, and that no other name has changed. It holds before and after every operation, those that fail
included, so it holds when the transaction is given up at any point and after any part of the rollback.
-/

namespace Tala.Driver.ProjectArtifacts

open Library.FileSystem

/-! ## Names of the staging directory -/

variable {character : Char} {Name : Type}

theorem toNat_digit {n : Nat} (h : character ∈ Nat.toDigits 10 n) : character.toNat ≤ 57 := by
  have hdigit := Nat.isDigit_of_mem_toDigits (by decide) (by decide) h
  simp only [Char.isDigit, Bool.and_eq_true, decide_eq_true_eq] at hdigit
  exact hdigit.2

theorem bytes_toString (n : Nat) :
    bytes (toString n) = (Nat.toDigits 10 n).map fun character => UInt8.ofNat character.toNat := by
  unfold bytes
  rw [Nat.toString_eq_repr, Nat.toList_repr]

theorem toNat_byte_digit {n : Nat} (h : character ∈ Nat.toDigits 10 n) :
    (UInt8.ofNat character.toNat).toNat = character.toNat :=
  UInt8.toNat_ofNat_of_lt' (Nat.lt_of_le_of_lt (toNat_digit h) (by decide))

theorem bytes_toString_injective {i j : Nat} (h : bytes (toString i) = bytes (toString j)) : i = j := by
  have hchars : ∀ n : Nat, (bytes (toString n)).map (fun byte => Char.ofNat byte.toNat) = Nat.toDigits 10 n := by
    intro n
    rw [bytes_toString, List.map_map]
    conv_rhs => rw [← List.map_id (Nat.toDigits 10 n)]
    apply List.map_congr_left
    intro character hmem
    show Char.ofNat (UInt8.ofNat character.toNat).toNat = character
    rw [toNat_byte_digit hmem, Char.ofNat_toNat]
  have hdigits : Nat.toDigits 10 i = Nat.toDigits 10 j := by
    rw [← hchars, ← hchars, h]
  rw [← @Nat.ofDigitChars_ten_toDigits i, ← @Nat.ofDigitChars_ten_toDigits j, hdigits]

/-- Digits are ASCII and no letters. -/
theorem digits_plain (n : Nat) :
    isAscii (bytes (toString n)) = true ∧ foldAscii (bytes (toString n)) = bytes (toString n) := by
  have hle : ∀ byte ∈ bytes (toString n), byte.toNat ≤ 57 := by
    intro byte hbyte
    rw [bytes_toString] at hbyte
    obtain ⟨character, hmem, rfl⟩ := List.mem_map.mp hbyte
    rw [toNat_byte_digit hmem]
    exact toNat_digit hmem
  constructor
  · unfold isAscii
    rw [List.all_eq_true]
    intro byte hbyte
    have := hle byte hbyte
    rw [decide_eq_true_eq, UInt8.lt_iff_toNat_lt]
    exact Nat.lt_of_le_of_lt this (by decide)
  · unfold foldAscii
    conv_rhs => rw [← List.map_id (bytes (toString n))]
    apply List.map_congr_left
    intro byte hbyte
    have := hle byte hbyte
    rw [if_neg]
    · rfl
    · rintro ⟨hlow, _⟩
      rw [UInt8.le_iff_toNat_le] at hlow
      have hletter : (0x41 : UInt8).toNat = 65 := rfl
      omega

theorem isAscii_append (a b : Bytes) : isAscii (a ++ b) = (isAscii a && isAscii b) := List.all_append

theorem foldAscii_append (a b : Bytes) : foldAscii (a ++ b) = foldAscii a ++ foldAscii b := List.map_append

theorem newName_plain (index : Nat) :
    isAscii (newName index) = true ∧ foldAscii (newName index) = newName index := by
  obtain ⟨hascii, hfold⟩ := digits_plain index
  unfold newName
  rw [isAscii_append, foldAscii_append, hascii, hfold]
  exact ⟨rfl, rfl⟩

theorem oldName_plain (index : Nat) :
    isAscii (oldName index) = true ∧ foldAscii (oldName index) = oldName index := by
  obtain ⟨hascii, hfold⟩ := digits_plain index
  unfold oldName
  rw [isAscii_append, foldAscii_append, hascii, hfold]
  exact ⟨rfl, rfl⟩

section Keys

variable {Name : Type} (volume : Volume Name)

/-- A volume tells plain names apart. -/
theorem Volume.key_inj {a b : FileName} (ha : isAscii a = true ∧ foldAscii a = a)
    (hb : isAscii b = true ∧ foldAscii b = b) (h : volume.key a = volume.key b) : a = b := by
  rw [← ha.2, ← hb.2]
  exact volume.ascii a b ha.1 hb.1 h

theorem Volume.newName_inj {i j : Nat} (h : volume.key (newName i) = volume.key (newName j)) : i = j := by
  have heq := volume.key_inj (newName_plain i) (newName_plain j) h
  exact bytes_toString_injective (List.append_cancel_left heq)

theorem Volume.oldName_inj {i j : Nat} (h : volume.key (oldName i) = volume.key (oldName j)) : i = j := by
  have heq := volume.key_inj (oldName_plain i) (oldName_plain j) h
  exact bytes_toString_injective (List.append_cancel_left heq)

theorem Volume.newName_ne_oldName (i j : Nat) : volume.key (newName i) ≠ volume.key (oldName j) := by
  intro h
  have heq := volume.key_inj (newName_plain i) (oldName_plain j) h
  have hhead := congrArg List.head? heq
  exact absurd hhead (by simp [newName, oldName, bytes])

end Keys

/-- What the directory has under a name. -/
def contents {Name : Type} (disk : Disk Name) (name : Name) : Option (Entry Name) := lookup disk.root [name]

theorem contents_of_directory {disk : Disk Name} {names : Name → Option (Entry Name)}
    (h : disk.root = some (.directory names)) : contents disk = names := by
  funext name
  unfold contents
  rw [h, lookup, lookup]

/-! ## What the batch says about its names -/

/-- The names of the files are different names to the volume. -/
def Apart {Name : Type} (volume : Volume Name) (files : List ArtifactFile) : Prop :=
  files.Pairwise fun a b => volume.key a.fileName ≠ volume.key b.fileName

variable {files : List ArtifactFile}

theorem batchError_eq_none {names : List FileName} (h : batchError names files = none) :
    (∀ file ∈ files, foldAscii file.fileName ∉ names) ∧
      files.Pairwise fun a b => foldAscii a.fileName ≠ foldAscii b.fileName := by
  induction files generalizing names with
  | nil =>
      refine ⟨?_, List.Pairwise.nil⟩
      intro file hfile
      cases hfile
  | cons file files ih =>
      unfold batchError at h
      split at h
      · cases h
      split at h
      · cases h
      split at h
      · cases h
      next hnew =>
        obtain ⟨hothers, hpairs⟩ := ih h
        constructor
        · intro other hother
          rcases List.mem_cons.mp hother with rfl | hother
          · exact hnew
          · intro hmem
            exact hothers other hother (List.mem_cons_of_mem _ hmem)
        · refine List.Pairwise.cons ?_ hpairs
          intro other hother heq
          apply hothers other hother
          rw [heq]
          exact List.mem_cons_self

theorem apart_of_ascii (volume : Volume Name) (hascii : (files.any fun file => !isAscii file.fileName) = false)
    (hfold : files.Pairwise fun a b => foldAscii a.fileName ≠ foldAscii b.fileName) :
    Apart volume files := by
  have hall : ∀ file ∈ files, isAscii file.fileName = true := by
    intro file hfile
    have := List.any_eq_false.mp hascii file hfile
    simpa using this
  refine hfold.imp_of_mem ?_
  intro a b ha hb hne heq
  exact hne (volume.ascii _ _ (hall a ha) (hall b hb) heq)

/-! ## The invariant of the replacements -/

section Tracking

variable {Name : Type} (volume : Volume Name)
  /- What the names of the output directory stood for, and do now, and those of the staging directory. -/
  (before : Name → Option (Entry Name)) {entries entries' privates privates' : Name → Option (Entry Name)}

/-- What the flags of a replacement say. -/
structure Tracked (entries privates : Name → Option (Entry Name)) (replacement : PendingReplacement) :
    Prop where
  hadOriginal : replacement.hadOriginal = (before (volume.key replacement.destination)).isSome
  backedUp : replacement.backedUp = true → replacement.hadOriginal = true ∧
    privates (volume.key replacement.backup) = before (volume.key replacement.destination)
  moved : replacement.backedUp = true → replacement.installed = false →
    entries (volume.key replacement.destination) = none
  untouched : replacement.backedUp = false → replacement.installed = false →
    entries (volume.key replacement.destination) = before (volume.key replacement.destination)
  kept : replacement.installed = true → replacement.hadOriginal = true → replacement.backedUp = true

structure Tracking (staging : FileName) (entries privates : Name → Option (Entry Name))
    (replacements : List PendingReplacement) : Prop where
  others : ∀ name, name ≠ volume.key staging →
    (∀ replacement ∈ replacements, name ≠ volume.key replacement.destination) → entries name = before name
  each : ∀ replacement ∈ replacements, Tracked volume before entries privates replacement
  destinations : replacements.Pairwise fun a b => volume.key a.destination ≠ volume.key b.destination
  backups : replacements.Pairwise fun a b => volume.key a.backup ≠ volume.key b.backup
  apart : ∀ replacement ∈ replacements, volume.key replacement.destination ≠ volume.key staging
  names : ∀ replacement ∈ replacements, ∃ index, replacement.backup = oldName index

variable {volume before} {staging : FileName} {replacement replacement' : PendingReplacement}
  {done pending replacements : List PendingReplacement}

/-- A replacement is tracked as long as its own two names are what they were. -/
theorem Tracked.frame (h : Tracked volume before entries privates replacement)
    (hentries : entries' (volume.key replacement.destination) = entries (volume.key replacement.destination))
    (hprivates : privates' (volume.key replacement.backup) = privates (volume.key replacement.backup)) :
    Tracked volume before entries' privates' replacement := by
  constructor
  · exact h.hadOriginal
  · rw [hprivates]
    exact h.backedUp
  · rw [hentries]
    exact h.moved
  · rw [hentries]
    exact h.untouched
  · exact h.kept

/-- The names of another replacement are others. -/
theorem Tracking.ne_of_mem (h : Tracking volume before staging entries privates (done ++ replacement :: pending))
    {other : PendingReplacement} (hother : other ∈ done ∨ other ∈ pending) :
    volume.key other.destination ≠ volume.key replacement.destination ∧
      volume.key other.backup ≠ volume.key replacement.backup := by
  have hdestinations := List.pairwise_append.mp h.destinations
  have hbackups := List.pairwise_append.mp h.backups
  rcases hother with hother | hother
  · exact ⟨hdestinations.2.2 other hother replacement List.mem_cons_self,
      hbackups.2.2 other hother replacement List.mem_cons_self⟩
  · exact ⟨((List.pairwise_cons.mp hdestinations.2.1).1 other hother).symm,
      ((List.pairwise_cons.mp hbackups.2.1).1 other hother).symm⟩

/-- An operation on one replacement that leaves the names of the others alone. -/
theorem Tracking.set (h : Tracking volume before staging entries privates (done ++ replacement :: pending))
    (hdestination : replacement'.destination = replacement.destination)
    (hbackup : replacement'.backup = replacement.backup)
    (hentries : ∀ name, name ≠ volume.key replacement.destination → entries' name = entries name)
    (hprivates : ∀ index, volume.key (oldName index) ≠ volume.key replacement.backup →
      privates' (volume.key (oldName index)) = privates (volume.key (oldName index)))
    (htracked : Tracked volume before entries' privates' replacement') :
    Tracking volume before staging entries' privates' (done ++ replacement' :: pending) := by
  have hmem : ∀ other, other ∈ done ++ replacement' :: pending →
      other = replacement' ∨ ((other ∈ done ∨ other ∈ pending) ∧ other ∈ done ++ replacement :: pending) := by
    intro other hother
    simp only [List.mem_append, List.mem_cons] at hother ⊢
    tauto
  have hself : replacement ∈ done ++ replacement :: pending := by simp
  constructor
  · intro name hstaging hothers
    have hname : name ≠ volume.key replacement.destination := by
      rw [← hdestination]
      exact hothers replacement' (by simp)
    rw [hentries name hname]
    apply h.others name hstaging
    intro other hother
    simp only [List.mem_append, List.mem_cons] at hother
    rcases hother with hother | rfl | hother
    · exact hothers other (by simp [hother])
    · exact hname
    · exact hothers other (by simp [hother])
  · intro other hother
    rcases hmem other hother with rfl | ⟨hside, hother⟩
    · exact htracked
    · obtain ⟨hdestination', hbackup'⟩ := h.ne_of_mem hside
      obtain ⟨index, hindex⟩ := h.names other hother
      apply (h.each other hother).frame
      · exact hentries _ hdestination'
      · rw [hindex] at hbackup' ⊢
        exact hprivates index hbackup'
  · have hpairs := h.destinations
    simp only [List.pairwise_append, List.pairwise_cons, List.mem_cons, forall_eq_or_imp] at hpairs ⊢
    rw [hdestination]
    exact hpairs
  · have hpairs := h.backups
    simp only [List.pairwise_append, List.pairwise_cons, List.mem_cons, forall_eq_or_imp] at hpairs ⊢
    rw [hbackup]
    exact hpairs
  · intro other hother
    rcases hmem other hother with rfl | ⟨_, hother⟩
    · rw [hdestination]
      exact h.apart replacement hself
    · exact h.apart other hother
  · intro other hother
    rcases hmem other hother with rfl | ⟨_, hother⟩
    · rw [hbackup]
      exact h.names replacement hself
    · exact h.names other hother

/-! ## What the invariant gives when the transaction ends -/

variable [DecidableEq Name] {disk : Disk Name}

/-- Outside the staging directory everything is as before. -/
def Intact (volume : Volume Name) (before : Name → Option (Entry Name)) (staging : FileName) (disk : Disk Name) :
    Prop :=
  ∃ privates, Workspace (volume.key staging) before privates disk

/-- Every original is under its own name or in the staging directory. -/
def Recoverable (volume : Volume Name) (before : Name → Option (Entry Name)) (staging : FileName)
    (disk : Disk Name) : Prop :=
  ∃ entries privates, Workspace (volume.key staging) entries privates disk ∧
    ∀ name, name ≠ volume.key staging → ∀ entry, before name = some entry →
      entries name = some entry ∨ ∃ inner, privates inner = some entry

theorem intact_of_eq (h : Workspace (volume.key staging) entries privates disk)
    (heq : ∀ name, name ≠ volume.key staging → entries name = before name) :
    Intact volume before staging disk := by
  refine ⟨privates, ?_⟩
  unfold Workspace at h ⊢
  rw [h]
  congr 2
  funext name
  by_cases hname : name = volume.key staging
  · rw [hname, Function.update_self, Function.update_self]
  · rw [Function.update_of_ne hname, Function.update_of_ne hname, heq name hname]

theorem Tracking.recoverable (h : Tracking volume before staging entries privates replacements)
    (hdisk : Workspace (volume.key staging) entries privates disk) :
    Recoverable volume before staging disk := by
  refine ⟨entries, privates, hdisk, ?_⟩
  intro name hname entry hentry
  by_cases hothers : ∀ replacement ∈ replacements, name ≠ volume.key replacement.destination
  · left
    rw [h.others name hname hothers]
    exact hentry
  · push Not at hothers
    obtain ⟨replacement, hmem, rfl⟩ := hothers
    have htracked := h.each replacement hmem
    have horiginal : replacement.hadOriginal = true := by
      rw [htracked.hadOriginal, hentry]
      rfl
    cases hbackedUp : replacement.backedUp with
    | true =>
        right
        refine ⟨volume.key replacement.backup, ?_⟩
        rw [(htracked.backedUp hbackedUp).2, hentry]
    | false =>
        left
        have hinstalled : replacement.installed = false := by
          by_contra hinstalled
          have := htracked.kept (by simpa using hinstalled) horiginal
          rw [hbackedUp] at this
          cases this
        rw [htracked.untouched hbackedUp hinstalled, hentry]

/-- When everything has been taken back, nothing has changed. -/
theorem Tracking.intact (h : Tracking volume before staging entries privates replacements)
    (hdisk : Workspace (volume.key staging) entries privates disk)
    (hback : ∀ replacement ∈ replacements, replacement.backedUp = false ∧ replacement.installed = false) :
    Intact volume before staging disk := by
  apply intact_of_eq hdisk
  intro name hname
  by_cases hothers : ∀ replacement ∈ replacements, name ≠ volume.key replacement.destination
  · exact h.others name hname hothers
  · push Not at hothers
    obtain ⟨replacement, hmem, rfl⟩ := hothers
    obtain ⟨hbackedUp, hinstalled⟩ := hback replacement hmem
    exact (h.each replacement hmem).untouched hbackedUp hinstalled

/-! ## Rolling back -/

def Tracks (volume : Volume Name) (before : Name → Option (Entry Name)) (staging : FileName)
    (replacements : List PendingReplacement) (disk : Disk Name) : Prop :=
  ∃ entries privates, Workspace (volume.key staging) entries privates disk ∧
    Tracking volume before staging entries privates replacements

theorem text_ne_nil {text : String} (h : bytes text ≠ []) (rest : Bytes) : bytes text ++ rest ≠ [] := by
  intro hnil
  exact h (List.append_eq_nil_iff.mp hnil).1

/-- A replacement of which nothing is left to take back. -/
def PendingReplacement.Idle (replacement : PendingReplacement) : Prop :=
  replacement.backedUp = false ∧ replacement.installed = false

variable {outputDirectory : Bytes}

/-- What a rollback step ensures: it reports a failure or there is nothing left to do. -/
def TakesBack (volume : Volume Name) (before : Name → Option (Entry Name)) (staging : FileName)
    (done pending : List PendingReplacement) (answer : Bytes × PendingReplacement) (disk : Disk Name) : Prop :=
  Tracks volume before staging (done ++ answer.2 :: pending) disk ∧ (answer.1 = [] → answer.2.Idle)

theorem restore_tracks (hinstalled : replacement.installed = false) :
    Ensures (Tracks volume before staging (done ++ replacement :: pending))
      (restore volume outputDirectory staging replacement)
      (TakesBack volume before staging done pending) := by
  unfold restore
  split
  · next hbackedUp =>
    have hrename : Ensures (Tracks volume before staging (done ++ replacement :: pending))
        (rename [volume.key staging, volume.key replacement.backup] [volume.key replacement.destination])
        fun error disk => (error ≠ none ∧ Tracks volume before staging (done ++ replacement :: pending) disk) ∨
          (error = none ∧
            Tracks volume before staging (done ++ { replacement with backedUp := false } :: pending) disk) := by
      rintro disk ⟨entries, privates, hdisk, htracking⟩
      have hself : replacement ∈ done ++ replacement :: pending := by simp
      have htracked := htracking.each replacement hself
      have hbackup := htracked.backedUp hbackedUp
      rcases @Workspace.rename_in _ _ _ _ (volume.key replacement.backup) _ _ _ hdisk
        (htracking.apart replacement hself) with ⟨hfailed, hafter⟩ | ⟨hrestored, hafter⟩
      · left
        exact ⟨hfailed, _, _, hafter, htracking⟩
      · right
        refine ⟨hrestored, _, _, hafter, htracking.set rfl rfl ?_ ?_ ?_⟩
        · intro name hname
          exact Function.update_of_ne hname _ _
        · intro index hindex
          exact Function.update_of_ne hindex _ _
        · constructor
          · exact htracked.hadOriginal
          · intro hfalse
            cases hfalse
          · intro hfalse
            cases hfalse
          · intro _ _
            show Function.update entries _ _ _ = _
            rw [Function.update_self]
            exact hbackup.2
          · intro hinstalled'
            rw [show replacement.installed = true from hinstalled'] at hinstalled
            cases hinstalled
    refine hrename.bind ?_
    intro error
    cases error with
    | some error =>
        apply Ensures.pure
        rintro disk (⟨_, htracks⟩ | ⟨hfalse, _⟩)
        · refine ⟨htracks, ?_⟩
          intro hnil
          simp only [List.append_assoc] at hnil
          exact absurd hnil (text_ne_nil (by decide) _)
        · cases hfalse
    | none =>
        apply Ensures.pure
        rintro disk (⟨hfalse, _⟩ | ⟨_, htracks⟩)
        · exact absurd rfl hfalse
        · exact ⟨htracks, fun _ => ⟨rfl, hinstalled⟩⟩
  · next hbackedUp =>
    apply Ensures.pure
    intro disk htracks
    exact ⟨htracks, fun _ => ⟨by simpa using hbackedUp, hinstalled⟩⟩

theorem rollBackOne_tracks :
    Ensures (Tracks volume before staging (done ++ replacement :: pending))
      (rollBackOne volume outputDirectory staging replacement)
      (TakesBack volume before staging done pending) := by
  unfold rollBackOne
  split
  · next hinstalled =>
    have hremove : Ensures (Tracks volume before staging (done ++ replacement :: pending))
        (remove [volume.key replacement.destination])
        fun error disk => (error ≠ none ∧ Tracks volume before staging (done ++ replacement :: pending) disk) ∨
          (error = none ∧
            Tracks volume before staging (done ++ { replacement with installed := false } :: pending) disk) := by
      rintro disk ⟨entries, privates, hdisk, htracking⟩
      have hself : replacement ∈ done ++ replacement :: pending := by simp
      have htracked := htracking.each replacement hself
      rcases hdisk.remove (htracking.apart replacement hself) with ⟨hfailed, hafter⟩ | ⟨hremoved, hafter⟩
      · left
        exact ⟨hfailed, _, _, hafter, htracking⟩
      · right
        refine ⟨hremoved, _, _, hafter, htracking.set rfl rfl ?_ (fun _ _ => rfl) ?_⟩
        · intro name hname
          exact Function.update_of_ne hname _ _
        · constructor
          · exact htracked.hadOriginal
          · exact htracked.backedUp
          · intro _ _
            exact Function.update_self _ _ _
          · intro hbackedUp _
            -- what was installed without a backup had no original
            have hnone : replacement.hadOriginal = false := by
              by_contra horiginal
              have := htracked.kept hinstalled (by simpa using horiginal)
              rw [show replacement.backedUp = false from hbackedUp] at this
              cases this
            rw [htracked.hadOriginal, Option.isSome_eq_false_iff, Option.isNone_iff_eq_none] at hnone
            show Function.update entries _ _ _ = before (volume.key replacement.destination)
            rw [Function.update_self, hnone]
          · intro hfalse
            cases hfalse
    refine hremove.bind ?_
    intro error
    cases error with
    | some error =>
        apply Ensures.pure
        rintro disk (⟨_, htracks⟩ | ⟨hfalse, _⟩)
        · refine ⟨htracks, ?_⟩
          intro hnil
          simp only [List.append_assoc] at hnil
          exact absurd hnil (text_ne_nil (by decide) _)
        · cases hfalse
    | none =>
        rintro disk (⟨hfalse, _⟩ | ⟨_, htracks⟩)
        · exact absurd rfl hfalse
        · exact restore_tracks rfl disk htracks
  · next hinstalled => exact restore_tracks (by simpa using hinstalled)

/-- The whole rollback, whatever stands before the replacements it takes back. -/
theorem rollBack_tracks :
    Ensures (Tracks volume before staging (done ++ replacements))
      (rollBack volume outputDirectory staging replacements)
      fun answer disk => Tracks volume before staging (done ++ answer.2) disk ∧
        (answer.1 = [] → ∀ replacement ∈ answer.2, replacement.Idle) := by
  induction replacements generalizing done with
  | nil =>
      apply Ensures.pure
      intro disk htracks
      refine ⟨htracks, ?_⟩
      intro _ replacement hmem
      cases hmem
  | cons replacement replacements ih =>
      unfold rollBack
      have hothers := @ih (done ++ [replacement])
      rw [List.append_assoc, List.singleton_append] at hothers
      refine hothers.bind ?_
      rintro ⟨failures, others⟩
      intro disk ⟨htracks, hidle⟩
      rw [List.append_assoc, List.singleton_append] at htracks
      obtain ⟨hafter, hself⟩ := rollBackOne_tracks disk htracks
      refine ⟨hafter, ?_⟩
      intro hnil other hother
      obtain ⟨hfailures, hfailure⟩ := List.append_eq_nil_iff.mp hnil
      rcases List.mem_cons.mp hother with rfl | hother
      · exact hself hfailure
      · exact hidle hfailures other hother

/-- What a transaction that stops leaves. -/
def Stopped (volume : Volume Name) (before : Name → Option (Entry Name)) (staging : FileName) (failure : Abort)
    (disk : Disk Name) : Prop :=
  (failure.preserve = false → Intact volume before staging disk) ∧
    (failure.preserve = true → Recoverable volume before staging disk)

theorem abortReplacement_stops {primaryError : Bytes} {Q : Unit → Disk Name → Prop} :
    Triple (Tracks volume before staging replacements)
      (abortReplacement volume outputDirectory staging replacements primaryError) Q
      (Stopped volume before staging) := by
  unfold abortReplacement
  refine Triple.bind (Triple.operation (@rollBack_tracks _ volume before staging [] replacements _ _)) ?_
  rintro ⟨failures, after⟩
  dsimp only
  split
  · next hnone =>
    apply Triple.throw
    rintro disk ⟨⟨entries, privates, hdisk, htracking⟩, hidle⟩
    constructor
    · intro _
      exact htracking.intact hdisk (hidle (List.isEmpty_iff.mp hnone))
    · intro hfalse
      cases hfalse
  · apply Triple.throw
    rintro disk ⟨⟨entries, privates, hdisk, htracking⟩, _⟩
    constructor
    · intro hfalse
      cases hfalse
    · intro _
      exact htracking.recoverable hdisk

/-! ## Preparing the replacements -/

theorem Intact.stopped (h : Intact volume before staging disk) (message : Bytes) :
    Stopped volume before staging ⟨message, false⟩ disk := by
  constructor
  · intro _
    exact h
  · intro hfalse
    cases hfalse

theorem stop_stops {α : Type} {P : Disk Name → Prop} {Q : α → Disk Name → Prop} (message : Bytes)
    (h : ∀ disk, P disk → Intact volume before staging disk) :
    Triple P (stop message : Step Name α) Q (Stopped volume before staging) := by
  apply Triple.throw
  intro disk hdisk
  exact (h disk hdisk).stopped message

/-- The probes so far: each name that was tried is a directory among them. -/
def Probed (volume : Volume Name) (before : Name → Option (Entry Name)) (staging : FileName)
    (files : List ArtifactFile) (disk : Disk Name) : Prop :=
  ∃ privates, Workspace (volume.key staging) before privates disk ∧
    ∀ file ∈ files, lookup (privates (volume.key (bytes "name-probes"))) [volume.key file.fileName] ≠ none

theorem probeNames_spec {tried files : List ArtifactFile} :
    Triple (Probed volume before staging tried) (probeNames volume staging files)
      (fun _ disk => Intact volume before staging disk ∧ Apart volume files ∧
        ∀ file ∈ files, ∀ other ∈ tried, volume.key other.fileName ≠ volume.key file.fileName)
      (Stopped volume before staging) := by
  induction files generalizing tried with
  | nil =>
      apply Triple.pure
      rintro disk ⟨privates, hdisk, _⟩
      refine ⟨⟨privates, hdisk⟩, List.Pairwise.nil, ?_⟩
      intro file hfile
      cases hfile
  | cons file files ih =>
      unfold probeNames
      have hcreate : Ensures (Probed volume before staging tried)
          (createDirectory [volume.key staging, volume.key (bytes "name-probes"), volume.key file.fileName])
          fun answer disk => (answer.1 = false ∧ Intact volume before staging disk) ∨
            (answer.1 = true ∧ Probed volume before staging (file :: tried) disk ∧
              ∀ other ∈ tried, volume.key other.fileName ≠ volume.key file.fileName) := by
        rintro disk ⟨privates, hdisk, htried⟩
        obtain ⟨privates', hafter, hcreated⟩ := @Workspace.createDirectory _ _ _
          (volume.key (bytes "name-probes")) _ _ _ hdisk [volume.key file.fileName]
        cases hanswer : (createDirectory [volume.key staging, volume.key (bytes "name-probes"),
            volume.key file.fileName] disk).1.1 with
        | false =>
            left
            exact ⟨rfl, privates', hafter⟩
        | true =>
            right
            obtain ⟨hparent, hnew, rfl⟩ := hcreated hanswer
            have hother : ∀ other ∈ tried, volume.key other.fileName ≠ volume.key file.fileName := by
              intro other hmem heq
              have := htried other hmem
              rw [heq] at this
              exact this hnew
            refine ⟨rfl, ⟨_, hafter, ?_⟩, hother⟩
            -- the probes are a directory, so what was put there is found there
            rw [show [volume.key staging, volume.key (bytes "name-probes"), volume.key file.fileName].dropLast
              = [volume.key staging, volume.key (bytes "name-probes")] from rfl, hdisk.lookup_private,
              lookup] at hparent
            cases hprobes : privates (volume.key (bytes "name-probes")) with
            | none =>
                rw [hprobes] at hparent
                cases hparent
            | some probes =>
                cases probes with
                | file _ =>
                    rw [hprobes] at hparent
                    cases hparent
                | link _ =>
                    rw [hprobes] at hparent
                    cases hparent
                | directory probes =>
                    intro other hmem
                    rw [Function.update_self, put, lookup, lookup]
                    rcases List.mem_cons.mp hmem with rfl | hmem
                    · rw [Function.update_self, put]
                      exact Option.some_ne_none _
                    · rw [Function.update_of_ne (hother other hmem)]
                      have := htried other hmem
                      rw [hprobes, lookup, lookup] at this
                      exact this
      refine (Triple.operation hcreate).bind ?_
      rintro ⟨created, error⟩
      dsimp only
      split
      · next hcreated =>
        intro disk hdisk
        rcases hdisk with ⟨hfalse, _⟩ | ⟨_, hprobed, hother⟩
        · rw [hcreated] at hfalse
          cases hfalse
        · refine (@ih (file :: tried)).weaken (fun _ h => h) ?_ (fun _ _ h => h) disk hprobed
          rintro _ after ⟨hintact, hapart, hothers⟩
          refine ⟨hintact, List.Pairwise.cons ?_ hapart, ?_⟩
          · intro other hmem
            exact hothers other hmem file List.mem_cons_self
          · intro other hmem known hknown
            rcases List.mem_cons.mp hmem with rfl | hmem
            · exact hother known hknown
            · exact hothers other hmem known (List.mem_cons_of_mem _ hknown)
      · apply stop_stops
        rintro disk (⟨_, hintact⟩ | ⟨_, ⟨privates, hdisk, _⟩, _⟩)
        · exact hintact
        · exact ⟨privates, hdisk⟩

/-- After the probes the volume tells the files apart. -/
theorem probe_spec (hfold : files.Pairwise fun a b => foldAscii a.fileName ≠ foldAscii b.fileName) :
    Triple (Intact volume before staging) (probe volume staging files)
      (fun _ disk => Intact volume before staging disk ∧ Apart volume files)
      (Stopped volume before staging) := by
  unfold probe
  split
  · have hcreate : Ensures (Intact volume before staging)
        (createDirectory [volume.key staging, volume.key (bytes "name-probes")])
        fun _ => Intact volume before staging := by
      rintro disk ⟨privates, hdisk⟩
      obtain ⟨privates', hafter, _⟩ := @Workspace.createDirectory _ _ _
        (volume.key (bytes "name-probes")) _ _ _ hdisk []
      exact ⟨privates', hafter⟩
    refine (Triple.operation hcreate).bind ?_
    rintro ⟨created, error⟩
    cases error with
    | some error =>
        apply stop_stops
        intro disk hdisk
        exact hdisk
    | none =>
        refine (@probeNames_spec _ volume before staging _ [] files).weaken ?_ ?_ (fun _ _ h => h)
        · rintro disk ⟨privates, hdisk⟩
          refine ⟨privates, hdisk, ?_⟩
          intro file hfile
          cases hfile
        · rintro _ disk ⟨hintact, hapart, _⟩
          exact ⟨hintact, hapart⟩
  · next hascii =>
    apply Triple.pure
    intro disk hdisk
    exact ⟨hdisk, apart_of_ascii volume (by simpa using hascii) hfold⟩

/-- The new files are in the staging directory under their indices. -/
def Staged (volume : Volume Name) (privates : Name → Option (Entry Name)) (index : Nat)
    (files : List ArtifactFile) : Prop :=
  ∀ i file, files[i]? = some file → privates (volume.key (newName (index + i))) = some (.file file.bytes)

/-- The new files are staged and nothing else has changed. -/
def Ready (volume : Volume Name) (before : Name → Option (Entry Name)) (staging : FileName)
    (files : List ArtifactFile) (disk : Disk Name) : Prop :=
  ∃ privates, Workspace (volume.key staging) before privates disk ∧ Staged volume privates 0 files

theorem Ready.intact (h : Ready volume before staging files disk) : Intact volume before staging disk := by
  obtain ⟨privates, hdisk, _⟩ := h
  exact ⟨privates, hdisk⟩

theorem stageFiles_spec {staged files : List ArtifactFile} :
    Triple (Ready volume before staging staged)
      (stageFiles volume outputDirectory staging staged.length files)
      (fun _ => Ready volume before staging (staged ++ files)) (Stopped volume before staging) := by
  induction files generalizing staged with
  | nil =>
      apply Triple.pure
      intro disk hdisk
      rw [List.append_nil]
      exact hdisk
  | cons file files ih =>
      unfold stageFiles
      have hwrite : Ensures (Ready volume before staging staged)
          (writeFile [volume.key staging, volume.key (newName staged.length)] file.bytes)
          fun error disk => Intact volume before staging disk ∧
            (error = none → Ready volume before staging (staged ++ [file]) disk) := by
        rintro disk ⟨privates, hdisk, hstaged⟩
        obtain ⟨hwritten, hafter⟩ := @Workspace.writeFile _ _ _ (volume.key (newName staged.length))
          _ _ _ hdisk file.bytes
        refine ⟨hafter, ?_⟩
        intro hnone
        refine ⟨_, hwritten hnone, ?_⟩
        intro i other hother
        rw [Nat.zero_add]
        by_cases hi : i = staged.length
        · subst hi
          rw [List.getElem?_concat_length] at hother
          cases hother
          exact Function.update_self _ _ _
        · have hkey : volume.key (newName i) ≠ volume.key (newName staged.length) := by
            intro heq
            exact hi (volume.newName_inj heq)
          rw [Function.update_of_ne hkey]
          have hlt := (List.getElem?_eq_some_iff.mp hother).1
          rw [List.length_append, List.length_singleton] at hlt
          rw [List.getElem?_append_left (by omega)] at hother
          have := hstaged i other hother
          rwa [Nat.zero_add] at this
      refine (Triple.operation hwrite).bind ?_
      intro error
      cases error with
      | some stage =>
          apply stop_stops
          rintro disk ⟨hintact, _⟩
          exact hintact
      | none =>
          have hrest := @ih (staged ++ [file])
          rw [List.length_append, List.length_singleton, List.append_assoc] at hrest
          refine hrest.weaken ?_ (fun _ _ h => h) (fun _ _ h => h)
          rintro disk ⟨_, hready⟩
          exact hready rfl

/-- What the inspection plans for each file. -/
def plan (volume : Volume Name) (before : Name → Option (Entry Name)) :
    Nat → List ArtifactFile → List PendingReplacement
  | _, [] => []
  | index, file :: files =>
      ⟨file.fileName, oldName index, (before (volume.key file.fileName)).isSome, false, false⟩
        :: plan volume before (index + 1) files

theorem inspect_spec {all : List ArtifactFile} (index : Nat) :
    Triple (Ready volume before staging all) (inspect volume outputDirectory index files)
      (fun replacements disk => Ready volume before staging all disk ∧
        replacements = plan volume before index files ∧
        ∀ file ∈ files, volume.key file.fileName ≠ volume.key staging)
      (Stopped volume before staging) := by
  induction files generalizing index with
  | nil =>
      apply Triple.pure
      intro disk hdisk
      refine ⟨hdisk, rfl, ?_⟩
      intro file hfile
      cases hfile
  | cons file files ih =>
      unfold inspect
      have hstatus : Ensures (Ready volume before staging all) (symlinkStatus [volume.key file.fileName])
          fun status disk => Ready volume before staging all disk ∧ ∀ entry, status = .found entry →
            isDirectory entry = false → entry = before (volume.key file.fileName) ∧
              volume.key file.fileName ≠ volume.key staging := by
        rintro disk ⟨privates, hdisk, hstaged⟩
        obtain ⟨hafter, hfound⟩ := hdisk.symlinkStatus [volume.key file.fileName]
        refine ⟨⟨privates, hafter, hstaged⟩, ?_⟩
        intro entry hentry hfile
        obtain rfl := hfound entry hentry
        -- the staging directory is a directory
        have hne : volume.key file.fileName ≠ volume.key staging := by
          intro heq
          rw [heq, hdisk.lookup_staging] at hfile
          cases hfile
        exact ⟨hdisk.lookup_entry hne, hne⟩
      refine (Triple.operation hstatus).bind ?_
      intro status
      cases status with
      | unknown message =>
          apply stop_stops
          rintro disk ⟨hready, _⟩
          exact hready.intact
      | found entry =>
          dsimp only
          split
          · apply stop_stops
            rintro disk ⟨hready, _⟩
            exact hready.intact
          · next hfile =>
            intro disk hdisk
            obtain ⟨hready, hentry⟩ := hdisk
            obtain ⟨rfl, hne⟩ := hentry entry rfl (by simpa using hfile)
            refine Triple.bind (ih (index + 1)) ?_ disk hready
            intro others
            apply Triple.pure
            rintro after ⟨hready, rfl, hothers⟩
            refine ⟨hready, rfl, ?_⟩
            intro other hmem
            rcases List.mem_cons.mp hmem with rfl | hmem
            · exact hne
            · exact hothers other hmem

/-! ## Replacing -/

/-- The replacements before are done; those from here on have their new files staged. -/
structure Installing (volume : Volume Name) (before : Name → Option (Entry Name)) (staging : FileName)
    (done pending : List PendingReplacement) (written files : List ArtifactFile)
    (entries privates : Name → Option (Entry Name)) : Prop where
  tracking : Tracking volume before staging entries privates (done ++ pending)
  matched : done.map PendingReplacement.destination = written.map ArtifactFile.fileName
  staged : Staged volume privates done.length files
  installed : ∀ file ∈ written, entries (volume.key file.fileName) = some (.file file.bytes)

/-- A disk on which they are. -/
def Installs (volume : Volume Name) (before : Name → Option (Entry Name)) (staging : FileName)
    (done pending : List PendingReplacement) (written files : List ArtifactFile) (disk : Disk Name) : Prop :=
  ∃ entries privates, Workspace (volume.key staging) entries privates disk ∧
    Installing volume before staging done pending written files entries privates

/-- All files are in place and nothing else has changed. -/
def Committed (volume : Volume Name) (before : Name → Option (Entry Name)) (staging : FileName)
    (files : List ArtifactFile) (disk : Disk Name) : Prop :=
  ∃ entries privates, Workspace (volume.key staging) entries privates disk ∧
    (∀ file ∈ files, volume.key file.fileName ≠ volume.key staging ∧
      entries (volume.key file.fileName) = some (.file file.bytes)) ∧
    ∀ name, name ≠ volume.key staging → (∀ file ∈ files, name ≠ volume.key file.fileName) →
      entries name = before name

variable {written files : List ArtifactFile} {file : ArtifactFile}

theorem Installs.tracks (h : Installs volume before staging done pending written files disk) :
    Tracks volume before staging (done ++ pending) disk := by
  obtain ⟨entries, privates, hdisk, hinstalling⟩ := h
  exact ⟨entries, privates, hdisk, hinstalling.tracking⟩

omit [DecidableEq Name] in
/-- The file of a replacement that is done is no other one's. -/
theorem Installing.ne_of_written
    (h : Installing volume before staging done (replacement :: pending) written files entries privates)
    (hfile : file ∈ written) : volume.key file.fileName ≠ volume.key replacement.destination := by
  have hmem : file.fileName ∈ done.map PendingReplacement.destination := by
    rw [h.matched]
    exact List.mem_map_of_mem hfile
  obtain ⟨other, hother, heq⟩ := List.mem_map.mp hmem
  rw [← heq]
  exact (h.tracking.ne_of_mem (Or.inl hother)).1

theorem rename_backup (hidle : replacement.Idle) (horiginal : replacement.hadOriginal = true) :
    Ensures (Installs volume before staging done (replacement :: pending) written files)
      (rename [volume.key replacement.destination] [volume.key staging, volume.key replacement.backup])
      fun error disk =>
        (error ≠ none ∧ Installs volume before staging done (replacement :: pending) written files disk) ∨
          (error = none ∧
            Installs volume before staging done ({ replacement with backedUp := replacement.hadOriginal } :: pending)
              written files disk) := by
  rintro disk ⟨entries, privates, hdisk, h⟩
  have hself : replacement ∈ done ++ replacement :: pending := by simp
  have htracked := h.tracking.each replacement hself
  rcases @Workspace.rename_out _ _ _ _ (volume.key replacement.backup) _ _ _ hdisk
    (h.tracking.apart replacement hself) with ⟨hfailed, hafter⟩ | ⟨hmoved, hafter⟩
  · left
    exact ⟨hfailed, _, _, hafter, h⟩
  · right
    obtain ⟨index, hindex⟩ := h.tracking.names replacement hself
    refine ⟨hmoved, _, _, hafter, ?_, h.matched, ?_, ?_⟩
    · refine h.tracking.set rfl rfl ?_ ?_ ?_
      · intro name hname
        exact Function.update_of_ne hname _ _
      · intro other hother
        exact Function.update_of_ne hother _ _
      · constructor
        · exact htracked.hadOriginal
        · intro _
          refine ⟨horiginal, ?_⟩
          show Function.update privates _ _ _ = _
          rw [Function.update_self]
          exact htracked.untouched hidle.1 hidle.2
        · intro _ _
          exact Function.update_self _ _ _
        · intro hfalse
          rw [show replacement.hadOriginal = false from hfalse] at horiginal
          cases horiginal
        · intro _ _
          exact horiginal
    · intro i other hother
      rw [hindex, Function.update_of_ne (volume.newName_ne_oldName _ _)]
      exact h.staged i other hother
    · intro other hother
      rw [Function.update_of_ne (h.ne_of_written hother)]
      exact h.installed other hother

/-- The original is moved out of the way. -/
theorem backUp_spec (hidle : replacement.Idle) :
    Triple (Installs volume before staging done (replacement :: pending) written files)
      (backUp volume outputDirectory staging done replacement pending)
      (fun _ => Installs volume before staging done
        ({ replacement with backedUp := replacement.hadOriginal } :: pending) written files)
      (Stopped volume before staging) := by
  unfold backUp
  split
  · next horiginal =>
    refine (Triple.operation (rename_backup hidle horiginal)).bind ?_
    intro error
    cases error with
    | some error =>
        refine abortReplacement_stops.weaken ?_ (fun _ _ h => h) (fun _ _ h => h)
        rintro disk (⟨_, hdisk⟩ | ⟨hfalse, _⟩)
        · exact hdisk.tracks
        · cases hfalse
    | none =>
        apply Triple.pure
        rintro disk (⟨hfalse, _⟩ | ⟨_, hdisk⟩)
        · exact absurd rfl hfalse
        · exact hdisk
  · next horiginal =>
    apply Triple.pure
    intro disk hdisk
    have hflags : replacement.hadOriginal = replacement.backedUp := by
      rw [hidle.1]
      simpa using horiginal
    have heq : { replacement with backedUp := replacement.hadOriginal } = replacement :=
      congrArg (fun flag => { replacement with backedUp := flag }) hflags
    rw [heq]
    exact hdisk

theorem rename_install (hname : replacement.destination = file.fileName)
    (hbackedUp : replacement.backedUp = replacement.hadOriginal) :
    Ensures (Installs volume before staging done (replacement :: pending) written (file :: files))
      (rename [volume.key staging, volume.key (newName done.length)] [volume.key replacement.destination])
      fun error disk =>
        (error ≠ none ∧
            Installs volume before staging done (replacement :: pending) written (file :: files) disk) ∨
          (error = none ∧
            Installs volume before staging (done ++ [{ replacement with installed := true }]) pending
              (written ++ [file]) files disk) := by
  rintro disk ⟨entries, privates, hdisk, h⟩
  have hself : replacement ∈ done ++ replacement :: pending := by simp
  have htracked := h.tracking.each replacement hself
  rcases @Workspace.rename_in _ _ _ _ (volume.key (newName done.length)) _ _ _ hdisk
    (h.tracking.apart replacement hself) with ⟨hfailed, hafter⟩ | ⟨hmoved, hafter⟩
  · left
    exact ⟨hfailed, _, _, hafter, h⟩
  · right
    have hold : ∀ index, Function.update privates (volume.key (newName done.length)) none
        (volume.key (oldName index)) = privates (volume.key (oldName index)) := by
      intro index
      exact Function.update_of_ne (volume.newName_ne_oldName _ _).symm _ _
    refine ⟨hmoved, _, _, hafter, ?_, ?_, ?_, ?_⟩
    · rw [List.append_assoc, List.singleton_append]
      refine h.tracking.set rfl rfl ?_ (fun index _ => hold index) ?_
      · intro name hname
        exact Function.update_of_ne hname _ _
      · constructor
        · exact htracked.hadOriginal
        · intro hbacked
          obtain ⟨index, hindex⟩ := h.tracking.names replacement hself
          have hbackup := htracked.backedUp hbacked
          refine ⟨hbackup.1, ?_⟩
          show Function.update privates _ _ (volume.key replacement.backup) = _
          rw [hindex, hold, ← hindex]
          exact hbackup.2
        · intro _ hfalse
          cases hfalse
        · intro _ hfalse
          cases hfalse
        · intro _ horiginal
          show replacement.backedUp = true
          rw [hbackedUp]
          exact horiginal
    · rw [List.map_append, List.map_append, h.matched, List.map_singleton, List.map_singleton]
      show _ ++ [replacement.destination] = _
      rw [hname]
    · intro i other hother
      have hkey : volume.key (newName (done.length + 1 + i)) ≠ volume.key (newName done.length) := by
        intro heq
        have := volume.newName_inj heq
        omega
      rw [List.length_append, List.length_singleton, Function.update_of_ne hkey, Nat.add_assoc, Nat.add_comm 1 i]
      exact h.staged (i + 1) other hother
    · intro other hother
      rcases List.mem_append.mp hother with hother | hother
      · rw [Function.update_of_ne (h.ne_of_written hother)]
        exact h.installed other hother
      · rw [List.mem_singleton.mp hother, ← hname, Function.update_self]
        exact h.staged 0 file rfl

/-- The new file is moved to its place. -/
theorem install_spec (hname : replacement.destination = file.fileName)
    (hbackedUp : replacement.backedUp = replacement.hadOriginal) :
    Triple (Installs volume before staging done (replacement :: pending) written (file :: files))
      (install volume outputDirectory staging done replacement pending)
      (fun _ => Installs volume before staging (done ++ [{ replacement with installed := true }]) pending
        (written ++ [file]) files)
      (Stopped volume before staging) := by
  unfold install
  refine (Triple.operation (rename_install hname hbackedUp)).bind ?_
  intro error
  cases error with
  | some error =>
      refine abortReplacement_stops.weaken ?_ (fun _ _ h => h) (fun _ _ h => h)
      rintro disk (⟨_, hdisk⟩ | ⟨hfalse, _⟩)
      · exact hdisk.tracks
      · cases hfalse
  | none =>
      apply Triple.pure
      rintro disk (⟨hfalse, _⟩ | ⟨_, hdisk⟩)
      · exact absurd rfl hfalse
      · exact hdisk

theorem Installing.committed
    (h : Installing volume before staging done [] written files entries privates)
    (hdisk : Workspace (volume.key staging) entries privates disk) :
    Committed volume before staging written disk := by
  have htracking := h.tracking
  rw [List.append_nil] at htracking
  refine ⟨entries, privates, hdisk, ?_, ?_⟩
  · intro file hfile
    have hmem : file.fileName ∈ done.map PendingReplacement.destination := by
      rw [h.matched]
      exact List.mem_map_of_mem hfile
    obtain ⟨replacement, hreplacement, heq⟩ := List.mem_map.mp hmem
    rw [← heq]
    refine ⟨htracking.apart replacement hreplacement, ?_⟩
    rw [heq]
    exact h.installed file hfile
  · intro name hname hothers
    apply htracking.others name hname
    intro replacement hreplacement
    have hmem : replacement.destination ∈ written.map ArtifactFile.fileName := by
      rw [← h.matched]
      exact List.mem_map_of_mem hreplacement
    obtain ⟨file, hfile, heq⟩ := List.mem_map.mp hmem
    rw [← heq]
    exact hothers file hfile

theorem replaceFrom_spec :
    Triple
      (Installs volume before staging done (plan volume before done.length files) written files)
      (replaceFrom volume outputDirectory staging done (plan volume before done.length files))
      (fun _ => Committed volume before staging (written ++ files)) (Stopped volume before staging) := by
  induction files generalizing done written with
  | nil =>
      apply Triple.pure
      rintro disk ⟨entries, privates, hdisk, h⟩
      rw [List.append_nil]
      exact h.committed hdisk
  | cons file files ih =>
      unfold plan replaceFrom
      refine (backUp_spec ⟨rfl, rfl⟩).bind ?_
      intro _
      refine (install_spec rfl rfl).bind ?_
      intro _
      have hrest := @ih (done ++ [⟨file.fileName, oldName done.length,
        (before (volume.key file.fileName)).isSome, (before (volume.key file.fileName)).isSome, true⟩])
        (written ++ [file])
      rw [List.length_append, List.length_singleton, List.append_assoc] at hrest
      exact hrest

/-! ## The whole commit -/

omit [DecidableEq Name] in
theorem mem_plan {index : Nat} (h : replacement ∈ plan volume before index files) :
    (∃ file ∈ files, replacement.destination = file.fileName) ∧
      (∃ i, index ≤ i ∧ replacement.backup = oldName i) ∧
      replacement.hadOriginal = (before (volume.key replacement.destination)).isSome ∧ replacement.Idle := by
  induction files generalizing index with
  | nil => cases h
  | cons file files ih =>
      rcases List.mem_cons.mp h with rfl | h
      · exact ⟨⟨file, List.mem_cons_self, rfl⟩, ⟨index, Nat.le_refl _, rfl⟩, rfl, rfl, rfl⟩
      · obtain ⟨⟨other, hother, hname⟩, ⟨i, hle, hbackup⟩, hrest⟩ := ih h
        exact ⟨⟨other, List.mem_cons_of_mem _ hother, hname⟩, ⟨i, by omega, hbackup⟩, hrest⟩

omit [DecidableEq Name] in
theorem plan_destinations (index : Nat) :
    (plan volume before index files).map PendingReplacement.destination
      = files.map ArtifactFile.fileName := by
  induction files generalizing index with
  | nil => rfl
  | cons file files ih =>
      unfold plan
      rw [List.map_cons, List.map_cons, ih]

omit [DecidableEq Name] in
theorem plan_backups (index : Nat) :
    (plan volume before index files).Pairwise fun a b => volume.key a.backup ≠ volume.key b.backup := by
  induction files generalizing index with
  | nil => exact List.Pairwise.nil
  | cons file files ih =>
      refine List.Pairwise.cons ?_ (ih (index + 1))
      intro other hother heq
      obtain ⟨_, ⟨i, hle, hbackup⟩, _⟩ := mem_plan hother
      rw [hbackup] at heq
      have := volume.oldName_inj heq
      omega

omit [DecidableEq Name] in
/-- Nothing has happened to the replacements of a plan. -/
theorem plan_tracking (hapart : Apart volume files)
    (hne : ∀ file ∈ files, volume.key file.fileName ≠ volume.key staging) :
    Tracking volume before staging before privates (plan volume before 0 files) := by
  constructor
  · intro name _ _
    rfl
  · intro replacement hmem
    obtain ⟨_, _, horiginal, hbackedUp, hinstalled⟩ := mem_plan hmem
    constructor
    · exact horiginal
    · intro htrue
      rw [hbackedUp] at htrue
      cases htrue
    · intro htrue
      rw [hbackedUp] at htrue
      cases htrue
    · intro _ _
      rfl
    · intro htrue
      rw [hinstalled] at htrue
      cases htrue
  · have hnames : (files.map ArtifactFile.fileName).Pairwise fun a b => volume.key a ≠ volume.key b :=
      List.pairwise_map.mpr hapart
    rw [← @plan_destinations _ volume before files 0] at hnames
    exact (List.pairwise_map (f := PendingReplacement.destination)).mp hnames
  · exact plan_backups 0
  · intro replacement hmem
    obtain ⟨⟨file, hfile, hname⟩, _⟩ := mem_plan hmem
    rw [hname]
    exact hne file hfile
  · intro replacement hmem
    obtain ⟨_, ⟨i, _, hbackup⟩, _⟩ := mem_plan hmem
    exact ⟨i, hbackup⟩

theorem transact_spec
    (hfold : files.Pairwise fun a b => foldAscii a.fileName ≠ foldAscii b.fileName) :
    Triple (Intact volume before staging) (transact volume outputDirectory staging files)
      (fun _ => Committed volume before staging files) (Stopped volume before staging) := by
  unfold transact
  refine (probe_spec hfold).bind ?_
  intro _ disk ⟨⟨privates, hdisk⟩, hapart⟩
  have hready : Ready volume before staging [] disk := by
    refine ⟨privates, hdisk, ?_⟩
    intro i file hfile
    cases hfile
  refine Triple.bind (@stageFiles_spec _ volume before staging _ _ [] files) ?_ disk hready
  intro _
  refine (inspect_spec 0).bind ?_
  intro replacements
  rintro after ⟨⟨privates', hafter, hstaged⟩, rfl, hne⟩
  refine (@replaceFrom_spec _ volume before staging [] _ _ [] files) after ⟨before, privates', hafter, ?_⟩
  refine ⟨plan_tracking hapart hne, rfl, hstaged, ?_⟩
  intro file hfile
  cases hfile

/-- The staging directory of a commit is still there, in part or whole. -/
def Commit.Keeps (volume : Volume Name) (commit : Commit Name) (name : Name) : Prop :=
  ∃ staging, commit.staging = some staging ∧ name = volume.key staging ∧
    (commit.preserved = true ∨ commit.ignored ≠ none)

omit [DecidableEq Name] in
theorem createDirectories_spec :
    Ensures (fun disk => contents disk = before) (createDirectories : Operation Name (Option FileError))
      fun _ disk => contents disk = before := by
  intro disk hdisk
  unfold createDirectories
  rcases attempt_cases (fun fault root => (some fault.error, root)) createRoot disk with
    ⟨faults, heq⟩ | ⟨fault, faults, heq⟩
  · rw [heq, ← hdisk]
    rcases disk with ⟨_ | ⟨_ | _ | _⟩, _⟩ <;> rfl
  · rw [heq]
    exact hdisk

omit [DecidableEq Name] in
theorem outputStatus_spec :
    Ensures (fun disk => contents disk = before) (outputStatus : Operation Name Bool)
      fun present disk => contents disk = before ∧
        (present = true → disk.root = some (.directory before)) := by
  intro disk hdisk
  unfold outputStatus
  rcases attempt_cases (fun _ root => (false, root)) (fun root => (isDirectory root, root)) disk with
    ⟨faults, heq⟩ | ⟨fault, faults, heq⟩
  · rw [heq]
    refine ⟨hdisk, ?_⟩
    intro hpresent
    rcases disk with ⟨_ | ⟨_ | _ | names⟩, rest⟩
    · cases hpresent
    · cases hpresent
    · cases hpresent
    · rw [← hdisk, contents_of_directory rfl]
  · rw [heq]
    refine ⟨hdisk, ?_⟩
    intro hfalse
    cases hfalse

/-- What a transaction that does not begin leaves. -/
def NotBegun (before : Name → Option (Entry Name)) (failure : Abort) (disk : Disk Name) : Prop :=
  failure.preserve = false ∧ contents disk = before

/-- The staging directory is new and nothing else has changed. -/
theorem reserve_spec (sequence attempts : Nat) :
    Triple (fun disk => disk.root = some (.directory before)) (reserve volume sequence attempts)
      (fun staging disk => before (volume.key staging) = none ∧ Intact volume before staging disk)
      (NotBegun before) := by
  induction attempts generalizing sequence with
  | zero =>
      apply Triple.throw
      intro disk hdisk
      exact ⟨rfl, contents_of_directory hdisk⟩
  | succ attempts ih =>
      unfold reserve
      dsimp only
      generalize stagingName (sequence % 2 ^ 64) = staging
      have hcreate : Ensures (fun disk => disk.root = some (.directory before))
          (createDirectory [volume.key staging])
          fun answer disk => (answer.1 = true ∧ before (volume.key staging) = none ∧
              Intact volume before staging disk) ∨
            (answer.1 = false ∧ disk.root = some (.directory before)) := by
        intro disk hdisk
        cases hanswer : (createDirectory [volume.key staging] disk).1.1 with
        | true =>
            obtain ⟨hnew, hafter⟩ := createDirectory_staging hdisk hanswer
            left
            exact ⟨rfl, hnew, _, hafter⟩
        | false =>
            right
            exact ⟨rfl, (createDirectory_not_created _ hanswer).trans hdisk⟩
      refine (Triple.operation hcreate).bind ?_
      rintro ⟨created, error⟩
      cases created with
      | true =>
          apply Triple.pure
          rintro disk (⟨_, hnew, hintact⟩ | ⟨hfalse, _⟩)
          · exact ⟨hnew, hintact⟩
          · cases hfalse
      | false =>
          have hretry : Triple
              (fun disk => (false = true ∧ before (volume.key staging) = none ∧
                Intact volume before staging disk) ∨ (false = false ∧ disk.root = some (.directory before)))
              (reserve volume (sequence + 1) attempts)
              (fun staging disk => before (volume.key staging) = none ∧ Intact volume before staging disk)
              (NotBegun before) := by
            refine (ih (sequence + 1)).weaken ?_ (fun _ _ h => h) (fun _ _ h => h)
            rintro disk (⟨hfalse, _⟩ | ⟨_, hdisk⟩)
            · cases hfalse
            · exact hdisk
          cases error with
          | none => exact hretry
          | some error =>
              dsimp only
              split
              · next hfalse => cases hfalse
              split
              · exact hretry
              · apply Triple.throw
                rintro disk (⟨hfalse, _⟩ | ⟨_, hdisk⟩)
                · cases hfalse
                · exact ⟨rfl, contents_of_directory hdisk⟩

omit [DecidableEq Name] in
/-- A transaction that stops before it has a staging directory. -/
theorem stop_notBegun {α : Type} {P : Disk Name → Prop} {Q : α → Disk Name → Prop} (message : Bytes)
    (h : ∀ disk, P disk → contents disk = before) :
    Triple P (stop message : Step Name α) Q (NotBegun before) := by
  apply Triple.throw
  intro disk hdisk
  exact ⟨rfl, h disk hdisk⟩

theorem openDirectory_spec (sequence : Nat) :
    Triple (fun disk => contents disk = before) (openDirectory volume sequence)
      (fun staging disk => before (volume.key staging) = none ∧ Intact volume before staging disk)
      (NotBegun before) := by
  unfold openDirectory
  refine (Triple.operation createDirectories_spec).bind ?_
  intro error
  cases error with
  | some error => exact stop_notBegun _ fun _ h => h
  | none =>
      refine (Triple.operation outputStatus_spec).bind ?_
      intro present
      cases present with
      | true =>
          rw [if_pos rfl]
          refine (reserve_spec sequence 128).weaken ?_ (fun _ _ h => h) (fun _ _ h => h)
          rintro disk ⟨_, hdirectory⟩
          exact hdirectory rfl
      | false =>
          apply stop_notBegun
          rintro disk ⟨hdisk, _⟩
          exact hdisk

theorem openTransaction_spec (sequence : Nat) :
    Triple (fun disk => contents disk = before) (openTransaction volume sequence files)
      (fun staging disk => files.Pairwise (fun a b => foldAscii a.fileName ≠ foldAscii b.fileName) ∧
        before (volume.key staging) = none ∧ Intact volume before staging disk)
      (NotBegun before) := by
  unfold openTransaction
  split
  · exact stop_notBegun _ fun _ h => h
  split
  · exact stop_notBegun _ fun _ h => h
  · next hbatch =>
    refine (openDirectory_spec sequence).weaken (fun _ h => h) ?_ (fun _ _ h => h)
    intro staging disk hopened
    exact ⟨(batchError_eq_none hbatch).2, hopened⟩

/-- What a commit promises. -/
structure AllOrNothing (volume : Volume Name) (files : List ArtifactFile) (disk : Disk Name)
    (commit : Commit Name) : Prop where
  succeeds : commit.error = none →
    (∀ file ∈ files, contents commit.disk (volume.key file.fileName) = some (.file file.bytes)) ∧
      ∀ name, (∀ file ∈ files, name ≠ volume.key file.fileName) → ¬ commit.Keeps volume name →
        contents commit.disk name = contents disk name
  fails : commit.error ≠ none → commit.preserved = false → ∀ name, ¬ commit.Keeps volume name →
    contents commit.disk name = contents disk name
  recoverable : commit.preserved = true → ∃ staging privates, commit.staging = some staging ∧
    contents commit.disk (volume.key staging) = some (.directory privates) ∧
      ∀ name entry, contents disk name = some entry →
        contents commit.disk name = some entry ∨ ∃ inner, privates inner = some entry
  keepsNew : ∀ name, commit.Keeps volume name → contents disk name = none

/-- The end of the staging directory. -/
theorem contents_removeAll {entries privates : Name → Option (Entry Name)}
    (h : Workspace (volume.key staging) entries privates disk) :
    (∀ name, name ≠ volume.key staging →
        contents (removeAll [volume.key staging] disk).2 name = entries name) ∧
      ((removeAll [volume.key staging] disk).1 = none →
        contents (removeAll [volume.key staging] disk).2 (volume.key staging) = none) := by
  obtain ⟨remains, hroot, hremoved⟩ := h.removeAll
  rw [contents_of_directory hroot]
  constructor
  · intro name hname
    exact Function.update_of_ne hname _ _
  · intro hnone
    rw [Function.update_self, hremoved hnone]

variable {message : Bytes}

omit [DecidableEq Name] in
theorem allOrNothing_notBegun {after : Disk Name} (h : contents after = contents disk) :
    AllOrNothing volume files disk ⟨some message, none, false, none, after⟩ := by
  constructor
  · intro hfalse
    cases hfalse
  · intro _ _ name _
    exact congrFun h name
  · intro hfalse
    cases hfalse
  · rintro name ⟨_, hfalse, _⟩
    cases hfalse

theorem allOrNothing_preserved {after : Disk Name} (hnew : contents disk (volume.key staging) = none)
    (h : Recoverable volume (contents disk) staging after) :
    AllOrNothing volume files disk ⟨some message, some staging, true, none, after⟩ := by
  obtain ⟨entries, privates, hafter, hrecover⟩ := h
  have hentries : ∀ name, name ≠ volume.key staging → contents after name = entries name := by
    intro name hname
    exact hafter.lookup_entry hname
  constructor
  · intro hfalse
    cases hfalse
  · intro _ hfalse
    cases hfalse
  · intro _
    refine ⟨staging, privates, rfl, hafter.lookup_staging, ?_⟩
    intro name entry hentry
    have hname : name ≠ volume.key staging := by
      rintro rfl
      rw [hnew] at hentry
      cases hentry
    show contents after name = some entry ∨ _
    rw [hentries name hname]
    exact hrecover name hname entry hentry
  · rintro name ⟨_, hstaging, rfl, _⟩
    cases hstaging
    exact hnew

/-- The staging directory is removed, or some of it. -/
theorem not_keeps {error : Option Bytes} {ignored : Option FileError} {after : Disk Name} {name : Name}
    (h : ¬ Commit.Keeps volume ⟨error, some staging, false, ignored, after⟩ name) :
    name ≠ volume.key staging ∨ ignored = none := by
  by_contra hboth
  push Not at hboth
  exact h ⟨staging, rfl, hboth.1, Or.inr hboth.2⟩

theorem allOrNothing_intact {middle : Disk Name} (hnew : contents disk (volume.key staging) = none)
    (h : Intact volume (contents disk) staging middle) :
    AllOrNothing volume files disk ⟨some message, some staging, false,
      (removeAll [volume.key staging] middle).1, (removeAll [volume.key staging] middle).2⟩ := by
  obtain ⟨privates, hmiddle⟩ := h
  obtain ⟨hothers, hremoved⟩ := contents_removeAll hmiddle
  constructor
  · intro hfalse
    cases hfalse
  · intro _ _ name hkeeps
    by_cases hname : name = volume.key staging
    · subst hname
      rcases not_keeps hkeeps with hne | hnone
      · exact absurd rfl hne
      · rw [hnew]
        exact hremoved hnone
    · exact hothers name hname
  · intro hfalse
    cases hfalse
  · rintro name ⟨_, hstaging, rfl, _⟩
    cases hstaging
    exact hnew

theorem allOrNothing_committed {middle : Disk Name} (hnew : contents disk (volume.key staging) = none)
    (h : Committed volume (contents disk) staging files middle) :
    AllOrNothing volume files disk ⟨none, some staging, false,
      (removeAll [volume.key staging] middle).1, (removeAll [volume.key staging] middle).2⟩ := by
  obtain ⟨entries, privates, hmiddle, hfiles, hothers⟩ := h
  obtain ⟨hcontents, hremoved⟩ := contents_removeAll hmiddle
  constructor
  · intro _
    constructor
    · intro file hfile
      obtain ⟨hne, hentry⟩ := hfiles file hfile
      exact (hcontents _ hne).trans hentry
    · intro name hplanned hkeeps
      by_cases hname : name = volume.key staging
      · subst hname
        rcases not_keeps hkeeps with hne | hnone
        · exact absurd rfl hne
        · rw [hnew]
          exact hremoved hnone
      · exact (hcontents name hname).trans (hothers name hname hplanned)
  · intro hfalse
    exact absurd rfl hfalse
  · intro hfalse
    cases hfalse
  · rintro name ⟨_, hstaging, rfl, _⟩
    cases hstaging
    exact hnew

/-- **A commit replaces all files or none.** If it reports no error then every file has its new contents
and nothing else has changed. If it reports an error and its rollback succeeded then nothing has changed.
If a rollback step failed then every original entry is under its own name or in the staging directory, which
is kept. The staging directory had not been there; it remains when its removal fails. -/
theorem commitArtifactFiles_allOrNothing (volume : Volume Name) (outputDirectory : Bytes) (sequence : Nat)
    (files : List ArtifactFile) (disk : Disk Name) :
    AllOrNothing volume files disk (commitArtifactFiles volume outputDirectory sequence files disk) := by
  have hopen := @openTransaction_spec _ volume (contents disk) _ files sequence disk rfl
  unfold commitArtifactFiles
  rcases hrun : (openTransaction volume sequence files).run disk with ⟨failure | staging, middle⟩
  · rw [hrun] at hopen
    exact allOrNothing_notBegun hopen.2
  · rw [hrun] at hopen
    obtain ⟨hfold, hnew, hintact⟩ := hopen
    have htransact := @transact_spec _ volume (contents disk) staging _ outputDirectory files hfold middle hintact
    dsimp only
    rcases hrun' : (transact volume outputDirectory staging files).run middle with
      ⟨⟨message, _ | _⟩ | _, after⟩
    · rw [hrun'] at htransact
      exact allOrNothing_intact hnew (htransact.1 rfl)
    · rw [hrun'] at htransact
      exact allOrNothing_preserved hnew (htransact.2 rfl)
    · rw [hrun'] at htransact
      exact allOrNothing_committed hnew htransact

end Tracking

/-- An empty directory on which the removal of the staging directory is the first operation to fail. -/
def busyDisk : Disk FileName where
  root := some (.directory fun _ => none)
  faults := [none, none, none, none, none, none,
    some ⟨⟨.other, bytes "busy"⟩, .opening, 0, some (.directory fun _ => none)⟩]

/-- A commit of one file to it. -/
def busyCommit : Commit FileName :=
  commitArtifactFiles ⟨id, fun _ _ _ _ h => congrArg foldAscii h⟩ (bytes "out") 0 [⟨bytes "a.o", [1]⟩] busyDisk

/-- The commit reports no error, and there is a name that was not there before and is not the file's. -/
theorem busyCommit_keeps : busyCommit.error = none ∧ bytes ".tala-artifacts-0" ≠ bytes "a.o" ∧
    contents busyDisk (bytes ".tala-artifacts-0") = none ∧
    contents busyCommit.disk (bytes ".tala-artifacts-0") ≠ none := by
  have herror : busyCommit.error = none := by decide +kernel
  have hsome : (contents busyCommit.disk (bytes ".tala-artifacts-0")).isSome = true := by decide +kernel
  refine ⟨herror, by decide, rfl, ?_⟩
  intro hnone
  rw [hnone] at hsome
  cases hsome

end Tala.Driver.ProjectArtifacts
