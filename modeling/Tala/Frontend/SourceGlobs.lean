import Mathlib.Data.List.Induction
import Tala.Library.Wildcard
import Tala.Frontend.SourceSet

/-!
# What a glob means

A text is read as its pieces between separators. Normalization changes the spelling of a text and
keeps its pieces, so the matcher, which normalizes a glob twice, agrees with a relation on pieces.
-/

namespace Tala.Frontend.SourceSet

open Tala.Library.Wildcard

/-! ## Pieces between separators -/

/-- The non-empty runs between separators. -/
def pieces (sep : Char → Bool) (s : FilePath) : List FilePath := (s.splitOnP sep).filter (· ≠ [])

variable {sep : Char → Bool}

@[simp] theorem pieces_nil : pieces sep [] = [] := rfl

variable {c : Char} {s n : FilePath} {sep' : Char → Bool} {names : List FilePath}

theorem pieces_append (hc : sep c = true) (a b : FilePath) :
    pieces sep (a ++ c :: b) = pieces sep a ++ pieces sep b := by
  unfold pieces
  rw [List.splitOnP_append_cons a b hc, List.filter_append]

theorem pieces_cons (hc : sep c = true) (b : FilePath) : pieces sep (c :: b) = pieces sep b :=
  pieces_append hc [] b

theorem pieces_concat (hc : sep c = true) (a : FilePath) : pieces sep (a ++ [c]) = pieces sep a := by
  rw [pieces_append hc, pieces_nil, List.append_nil]

theorem pieces_free (hs : s ≠ []) (hfree : ∀ c ∈ s, sep c = false) : pieces sep s = [s] := by
  simp [pieces, List.splitOnP_eq_singleton hfree, hs]

/-- A text without separators, or two texts around one. -/
theorem cut_induction (sep : Char → Bool) {P : FilePath → Prop} (free : ∀ s, (∀ c ∈ s, sep c = false) → P s)
    (cut : ∀ a c b, sep c = true → P a → P b → P (a ++ c :: b)) (s : FilePath) : P s := by
  by_cases h : ∃ c ∈ s, sep c = true
  · obtain ⟨c, hmem, hc⟩ := h
    obtain ⟨a, b, rfl⟩ := List.append_of_mem hmem
    exact cut a c b hc (cut_induction sep free cut a) (cut_induction sep free cut b)
  · exact free s fun c hc => Bool.eq_false_iff.mpr fun hsep => h ⟨c, hc, hsep⟩
termination_by s.length
decreasing_by all_goals (rename_i heq; rw [heq]; simp only [List.length_append, List.length_cons]; omega)

theorem mem_pieces (hn : n ∈ pieces sep s) : n ≠ [] ∧ ∀ c ∈ n, sep c = false ∧ c ∈ s := by
  induction s using cut_induction sep with
  | free s hs =>
    by_cases he : s = []
    · rw [he, pieces_nil] at hn
      cases hn
    · rw [pieces_free he hs, List.mem_singleton] at hn
      rw [hn]
      exact ⟨he, fun c hc => ⟨hs c hc, hc⟩⟩
  | cut a c b hc iha ihb =>
    rw [pieces_append hc, List.mem_append] at hn
    rcases hn with hn | hn
    · exact ⟨(iha hn).1, fun c hc => ⟨((iha hn).2 c hc).1, List.mem_append_left _ ((iha hn).2 c hc).2⟩⟩
    · refine ⟨(ihb hn).1, fun c hc => ⟨((ihb hn).2 c hc).1, ?_⟩⟩
      exact List.mem_append_right _ (List.mem_cons_of_mem _ ((ihb hn).2 c hc).2)

/-- A map that keeps separators apart from other characters maps the pieces. -/
theorem pieces_map {f : Char → Char} (hf : ∀ c, sep' (f c) = sep c)
    (s : FilePath) : pieces sep' (s.map f) = (pieces sep s).map (List.map f) := by
  induction s using cut_induction sep with
  | free s hs =>
    by_cases he : s = []
    · rw [he]
      rfl
    · have hmap : ∀ c ∈ s.map f, sep' c = false := by
        intro c hc
        obtain ⟨d, hd, rfl⟩ := List.mem_map.mp hc
        rw [hf]
        exact hs d hd
      rw [pieces_free he hs, pieces_free (fun h => he (List.map_eq_nil_iff.mp h)) hmap]
      rfl
  | cut a c b hc iha ihb =>
    rw [List.map_append, List.map_cons, pieces_append ((hf c).trans hc), pieces_append hc,
      List.map_append, iha, ihb]

/-- More separators cut each piece further. -/
theorem pieces_refine {sub : Char → Bool} (hsub : ∀ c, sub c = true → sep c = true) (s : FilePath) :
    pieces sep s = (pieces sub s).flatMap (pieces sep) := by
  induction s using cut_induction sub with
  | free s hs =>
    by_cases he : s = []
    · rw [he]
      rfl
    · rw [pieces_free he hs, List.flatMap_singleton]
  | cut a c b hc iha ihb =>
    rw [pieces_append (hsub c hc), pieces_append hc, List.flatMap_append, ← iha, ← ihb]

/-- Separators that do not occur do not matter. -/
theorem pieces_congr (h : ∀ c ∈ s, sep c = sep' c) : pieces sep s = pieces sep' s := by
  induction s using cut_induction sep with
  | free s hs =>
    by_cases he : s = []
    · rw [he]
      rfl
    · rw [pieces_free he hs, pieces_free he fun c hc => (h c hc).symm.trans (hs c hc)]
  | cut a c b hc iha ihb =>
    have hc' : sep' c = true := (h c (by simp)).symm.trans hc
    rw [pieces_append hc, pieces_append hc',
      iha fun d hd => h d (List.mem_append_left _ hd),
      ihb fun d hd => h d (List.mem_append_right _ (List.mem_cons_of_mem _ hd))]

theorem pieces_dropWhile {drop : Char → Bool} (hdrop : ∀ c, drop c = true → sep c = true)
    (s : FilePath) : pieces sep (s.dropWhile drop) = pieces sep s := by
  induction s with
  | nil => rfl
  | cons c s ih =>
    rw [List.dropWhile_cons]
    split
    · next hc => rw [ih, pieces_cons (hdrop c hc)]
    · rfl

/-- Joining names again gives their pieces. -/
theorem pieces_intercalate (hc : sep c = true) (names : List FilePath) :
    pieces sep ([c].intercalate names) = names.flatMap (pieces sep) := by
  induction names with
  | nil => rfl
  | cons first rest ih =>
    cases rest with
    | nil => rw [List.intercalate_singleton, List.flatMap_singleton]
    | cons second rest =>
      rw [List.intercalate_cons_cons, List.append_assoc, List.singleton_append, pieces_append hc, ih]
      rfl

theorem flatMap_pieces (h : ∀ n ∈ names, n ≠ [] ∧ ∀ c ∈ n, sep c = false) : names.flatMap (pieces sep) = names := by
  induction names with
  | nil => rfl
  | cons n rest ih =>
    have hn := h n (List.mem_cons_self ..)
    rw [List.flatMap_cons, pieces_free hn.1 hn.2,
      ih fun m hm => h m (List.mem_cons_of_mem _ hm)]
    rfl

theorem pieces_collapseSlashes (hslash : sep '/' = true) (s : FilePath) :
    pieces sep (collapseSlashes s) = pieces sep s := by
  -- the text in front is carried along, since a piece may begin there
  suffices h : ∀ front, pieces sep (front ++ collapseSlashes s) = pieces sep (front ++ s) from h []
  fun_induction collapseSlashes s with
  | case1 => exact fun _ => rfl
  | case2 remaining ih =>
    intro front
    rw [ih front, pieces_append hslash, pieces_append hslash, pieces_cons hslash]
  | case3 value remaining _ ih =>
    intro front
    rw [List.append_cons, ih (front ++ [value]), ← List.append_cons]

theorem pieces_trimTrailingSlash (hslash : sep '/' = true) (s : FilePath) :
    pieces sep (trimTrailingSlash s) = pieces sep s := by
  induction s using List.reverseRecOn with
  | nil => rfl
  | append_singleton s c ih =>
    by_cases hc : c = '/'
    · have htrim : trimTrailingSlash (s ++ [c]) = trimTrailingSlash s := by
        simp [trimTrailingSlash, hc]
      rw [htrim, ih, hc, pieces_concat hslash]
    · have htrim : trimTrailingSlash (s ++ [c]) = s ++ [c] := by simp [trimTrailingSlash, hc]
      rw [htrim]

/-! ## The names a glob is made of -/

def isSlash (c : Char) : Bool := c == '/'

/-- A slash or a backslash. -/
def eitherSeparator (c : Char) : Bool := c == '/' || c == backslash

/-- What a glob is read as: its pieces, without those that name the directory they stand in. -/
def globNames (p : FilePath) : List FilePath := (pieces eitherSeparator p).filter (· ≠ ['.'])

theorem segments_eq (s : FilePath) : segments s = pieces isSlash s := rfl

theorem splitDirectories_eq (host : Host) (s : FilePath) :
    splitDirectories host s = pieces (isPathSeparator host) s := rfl

@[simp] theorem globNames_nil : globNames [] = [] := rfl

@[simp] theorem globNames_dot : globNames ['.'] = [] := by decide

theorem globNames_append (hc : eitherSeparator c = true) (a b : FilePath) :
    globNames (a ++ c :: b) = globNames a ++ globNames b := by
  simp only [globNames, pieces_append hc, List.filter_append]

theorem eitherSeparator_of_isPathSeparator (host : Host)
    (hc : isPathSeparator host c = true) : eitherSeparator c = true := by
  simp only [isPathSeparator, eitherSeparator, Bool.or_eq_true, Bool.and_eq_true] at hc ⊢
  exact hc.imp id And.right

theorem isPathSeparator_pathSeparator (host : Host) : isPathSeparator host (pathSeparator host) = true := by
  unfold isPathSeparator pathSeparator
  cases host.mingw32 <;> decide

theorem eitherSeparator_slash : eitherSeparator '/' = true := by decide

theorem slash_eq_slash (c : Char) : isSlash (slash c) = eitherSeparator c := by
  unfold slash isSlash eitherSeparator
  split
  · next h => rw [h]; decide
  · next h => simp [h]

theorem eitherSeparator_slash_map (c : Char) : eitherSeparator (slash c) = eitherSeparator c := by
  unfold slash
  split
  · next h => rw [h]; decide
  · rfl

theorem slash_of_not_separator (h : eitherSeparator c = false) : slash c = c := by
  refine if_neg fun hc => ?_
  rw [hc] at h
  exact absurd h (by decide)

theorem map_slash_of_free (h : ∀ c ∈ n, eitherSeparator c = false) : n.map slash = n := by
  conv_rhs => rw [← List.map_id n]
  exact List.map_congr_left fun c hc => slash_of_not_separator (h c hc)

theorem mem_globNames {p : FilePath} (hn : n ∈ globNames p) :
    n ≠ [] ∧ n ≠ ['.'] ∧ ∀ c ∈ n, eitherSeparator c = false := by
  obtain ⟨hmem, hdot⟩ := List.mem_filter.mp hn
  have h := mem_pieces hmem
  exact ⟨h.1, of_decide_eq_true hdot, fun c hc => (h.2 c hc).1⟩

/-! ## Normalization keeps the names -/

section Normalise

variable (host : Host)

/-- The components `normalise` keeps. -/
def kept (p : FilePath) : List FilePath :=
  (pieces (isPathSeparator host) p).filter (· ≠ ['.'])

theorem splitDirectories_rest (p : FilePath) :
    (splitDirectories host (p.dropWhile (isPathSeparator host))).filter (· ≠ ['.']) = kept host p := by
  rw [splitDirectories_eq, pieces_dropWhile fun _ h => h]
  rfl

/-- The pieces of a normalized path are those of the components kept, or a dot when there are none
and nothing stands in front. -/
theorem pieces_normalise (hsep : ∀ c, isPathSeparator host c = true → sep c = true)
    (hdot : sep '.' = false) (p : FilePath) :
    pieces sep (normalise host p) = (kept host p).flatMap (pieces sep) ∨
      kept host p = [] ∧ pieces sep (normalise host p) = [['.']] := by
  have hjoin : pieces sep (joinPath host (kept host p)) = (kept host p).flatMap (pieces sep) :=
    pieces_intercalate (hsep _ (isPathSeparator_pathSeparator host)) _
  have hseparator := hsep _ (isPathSeparator_pathSeparator host)
  have hdots : pieces sep ['.'] = [['.']] :=
    pieces_free (List.cons_ne_nil _ _) (by simpa using hdot)
  -- a separator at the end adds no piece
  have htrail : ∀ (b : Bool) (s : FilePath),
      pieces sep (if b then s ++ [pathSeparator host] else s) = pieces sep s := by
    intro b s
    cases b
    · rfl
    · exact pieces_concat hseparator s
  unfold normalise
  simp only [splitDirectories_rest, htrail]
  split
  · split
    · next hnames => exact .inr ⟨hnames, hdots⟩
    · exact .inl hjoin
  · exact .inl ((pieces_cons hseparator _).trans hjoin)

theorem flatMap_globNames (names : List FilePath) :
    (names.flatMap (pieces eitherSeparator)).filter (· ≠ ['.']) = names.flatMap globNames := by
  induction names with
  | nil => rfl
  | cons n rest ih =>
    rw [List.flatMap_cons, List.filter_append, ih]
    rfl

theorem globNames_kept (p : FilePath) : (kept host p).flatMap globNames = globNames p := by
  have hrefine : pieces eitherSeparator p =
      (pieces (isPathSeparator host) p).flatMap (pieces eitherSeparator) :=
    pieces_refine (fun _ h => eitherSeparator_of_isPathSeparator host h) p
  rw [globNames, hrefine, flatMap_globNames, kept]
  generalize pieces (isPathSeparator host) p = names
  induction names with
  | nil => rfl
  | cons n rest ih =>
    rw [List.flatMap_cons, List.filter_cons]
    split
    · rw [List.flatMap_cons, ih]
    · next hn =>
      have hdot : n = ['.'] := by simpa using hn
      rw [ih, hdot, globNames_dot]
      rfl

theorem globNames_normalise (p : FilePath) : globNames (normalise host p) = globNames p := by
  rcases pieces_normalise host (fun _ h => eitherSeparator_of_isPathSeparator host h)
    (by decide) p with h | ⟨hkept, h⟩
  · rw [globNames, h, flatMap_globNames, globNames_kept]
  · rw [← globNames_kept host p, hkept, globNames, h]
    rfl

theorem globNames_map_slash (s : FilePath) : globNames (s.map slash) = globNames s := by
  rw [globNames, pieces_map eitherSeparator_slash_map]
  have hmap : (pieces eitherSeparator s).map (List.map slash) = pieces eitherSeparator s := by
    conv_rhs => rw [← List.map_id (pieces eitherSeparator s)]
    exact List.map_congr_left fun n hn => map_slash_of_free fun c hc => ((mem_pieces hn).2 c hc).1
  rw [hmap]
  rfl

theorem globNames_normalizeSourcePath (s : FilePath) :
    globNames (normalizeSourcePath host s) = globNames s := by
  rw [normalizeSourcePath, globNames, pieces_collapseSlashes eitherSeparator_slash, ← globNames,
    globNames_map_slash, globNames_normalise]

theorem globNames_dropCurrentPrefix (s : FilePath) : globNames (dropCurrentPrefix s) = globNames s := by
  fun_induction dropCurrentPrefix s with
  | case1 remaining ih =>
    rw [ih]
    exact (globNames_append eitherSeparator_slash ['.'] remaining).symm
  | case2 value _ =>
    have hdrop : ∀ c : Char, (c == '/') = true → eitherSeparator c = true := by
      intro c hc
      simp [eitherSeparator, beq_iff_eq.mp hc]
    rw [globNames, pieces_dropWhile hdrop, globNames]

theorem globNames_trimTrailingSlash (s : FilePath) : globNames (trimTrailingSlash s) = globNames s := by
  rw [globNames, pieces_trimTrailingSlash eitherSeparator_slash, globNames]

/-- **A normalized glob has the names of the glob.** -/
theorem globNames_normalizePattern (p : FilePath) : globNames (normalizePattern host p) = globNames p := by
  rw [normalizePattern, globNames_trimTrailingSlash, globNames_dropCurrentPrefix,
    globNames_normalizeSourcePath]

/-! ## Normal forms have slashes only -/

/-- Slashes are the only separators. -/
def Slashed (s : FilePath) : Prop := backslash ∉ s

theorem mem_collapseSlashes (h : c ∈ collapseSlashes s) : c ∈ s := by
  fun_induction collapseSlashes s with
  | case1 => exact h
  | case2 remaining ih => exact List.mem_cons_of_mem _ (ih h)
  | case3 value remaining _ ih =>
    rcases List.mem_cons.mp h with rfl | h
    · exact List.mem_cons_self ..
    · exact List.mem_cons_of_mem _ (ih h)

theorem slashed_normalizeSourcePath (s : FilePath) : Slashed (normalizeSourcePath host s) := by
  intro h
  obtain ⟨c, -, hc⟩ := List.mem_map.mp (mem_collapseSlashes h)
  unfold slash at hc
  split at hc
  · exact absurd hc (by decide)
  · next hne => exact hne hc

theorem mem_dropCurrentPrefix (h : c ∈ dropCurrentPrefix s) : c ∈ s := by
  fun_induction dropCurrentPrefix s with
  | case1 remaining ih => exact List.mem_cons_of_mem _ (List.mem_cons_of_mem _ (ih h))
  | case2 value _ => exact (List.dropWhile_sublist _).subset h

theorem mem_trimTrailingSlash (h : c ∈ trimTrailingSlash s) : c ∈ s :=
  List.mem_reverse.mp ((List.dropWhile_sublist _).subset (List.mem_reverse.mp h))

theorem slashed_normalizePattern (p : FilePath) : Slashed (normalizePattern host p) :=
  fun h => slashed_normalizeSourcePath host p (mem_dropCurrentPrefix (mem_trimTrailingSlash h))

variable {host}

theorem eitherSeparator_of_slashed (hs : Slashed s) (hc : c ∈ s) : eitherSeparator c = isSlash c := by
  have hne : c ≠ backslash := fun h => hs (h ▸ hc)
  simp [eitherSeparator, isSlash, hne]

theorem isPathSeparator_of_slashed (hs : Slashed s) (hc : c ∈ s) :
    isPathSeparator host c = eitherSeparator c := by
  have hne : (c == backslash) = false := beq_eq_false_iff_ne.mpr fun h => hs (h ▸ hc)
  simp only [eitherSeparator, isPathSeparator, hne, Bool.and_false]

theorem globNames_of_slashed (hs : Slashed s) : globNames s = (segments s).filter (· ≠ ['.']) := by
  rw [globNames, segments_eq, pieces_congr fun c hc => eitherSeparator_of_slashed hs hc]

variable (host) in
/-- The segments of a normalized path are its names, or a dot when it has none. -/
theorem segments_normalizeSourcePath {q : FilePath} (hq : Slashed q) :
    segments (normalizeSourcePath host q) = globNames q ∨
      globNames q = [] ∧ segments (normalizeSourcePath host q) = [['.']] := by
  have hkept : kept host q = globNames q := by
    rw [kept, globNames, pieces_congr fun c hc => isPathSeparator_of_slashed hq hc]
  have hsegments : segments (normalizeSourcePath host q) =
      (pieces eitherSeparator (normalise host q)).map (List.map slash) := by
    rw [segments_eq, normalizeSourcePath, pieces_collapseSlashes rfl, pieces_map slash_eq_slash]
  rcases pieces_normalise host (fun _ h => eitherSeparator_of_isPathSeparator host h)
    (by decide) q with h | ⟨hnone, h⟩
  · left
    have hnames := fun n (hn : n ∈ globNames q) => mem_globNames hn
    rw [hsegments, h, hkept, flatMap_pieces fun n hn => ⟨(hnames n hn).1, (hnames n hn).2.2⟩]
    conv_rhs => rw [← List.map_id (globNames q)]
    exact List.map_congr_left fun n hn => map_slash_of_free (hnames n hn).2.2
  · right
    rw [hsegments, h]
    exact ⟨hkept ▸ hnone, by decide⟩

theorem segments_dropCurrentPrefix_subset (s : FilePath) : segments (dropCurrentPrefix s) ⊆ segments s := by
  fun_induction dropCurrentPrefix s with
  | case1 remaining ih =>
    have happend : segments ('.' :: '/' :: remaining) = segments ['.'] ++ segments remaining :=
      pieces_append rfl ['.'] remaining
    rw [happend]
    exact fun n hn => List.mem_append_right _ (ih hn)
  | case2 value _ =>
    have hdrop : segments (value.dropWhile (· == '/')) = segments value :=
      pieces_dropWhile (fun _ h => h) value
    rw [hdrop]
    exact List.Subset.refl _

theorem segments_normalizePattern_subset (q : FilePath) :
    segments (normalizePattern host q) ⊆ segments (normalizeSourcePath host q) := by
  rw [normalizePattern, segments_eq, pieces_trimTrailingSlash rfl]
  exact segments_dropCurrentPrefix_subset _

/-- The segments of a normalized glob are its names, if it has any. -/
theorem segments_normalizePattern {q : FilePath} (hq : Slashed q) (hnames : globNames q ≠ []) :
    segments (normalizePattern host q) = globNames q := by
  have hsource : segments (normalizeSourcePath host q) = globNames q :=
    (segments_normalizeSourcePath host hq).resolve_right fun h => hnames h.1
  have hdot : ∀ n ∈ segments (normalizePattern host q), n ≠ ['.'] := by
    intro n hn
    have hmem := segments_normalizePattern_subset q hn
    rw [hsource] at hmem
    exact (mem_globNames hmem).2.1
  have hfilter := globNames_of_slashed (slashed_normalizePattern host q)
  rw [globNames_normalizePattern, List.filter_eq_self.mpr fun n hn => decide_eq_true (hdot n hn)]
    at hfilter
  exact hfilter.symm

/-- The segments of a glob without names are dots. -/
theorem segments_normalizePattern_none {q : FilePath} (hq : Slashed q) (hnames : globNames q = []) :
    ∀ n ∈ segments (normalizePattern host q), n = ['.'] := by
  intro n hn
  have hmem := segments_normalizePattern_subset q hn
  rcases segments_normalizeSourcePath host hq with h | ⟨-, h⟩
  · rw [h, hnames] at hmem
    cases hmem
  · rw [h] at hmem
    exact List.mem_singleton.mp hmem

end Normalise

/-! ## The matcher -/

section Matching

variable (host : Host)

/-- A segment pattern: `*` stands for any run of characters, `?` for one. -/
def SegmentSpells : FilePath → FilePath → Prop :=
  Spells (· = '*') fun c actual => c = '?' ∨ pathCharacterEqual host c actual = true

/-- A glob: a segment `**` stands for any run of segments, another for one that it matches. -/
def GlobMatches : List FilePath → List FilePath → Prop :=
  Spells (· = ['*', '*']) (SegmentSpells host)

variable {host} in
@[simp] theorem segmentSpells_nil {value : FilePath} : SegmentSpells host [] value ↔ value = [] :=
  spells_nil

variable {host} in
theorem segmentSpells_star {rest value : FilePath} :
    SegmentSpells host ('*' :: rest) value ↔ SegmentSpells host rest value ∨
      ∃ actual more, value = actual :: more ∧ SegmentSpells host ('*' :: rest) more :=
  spells_star_step (by rfl)

variable {host} in
theorem segmentSpells_cons {rest value : FilePath} (hc : c ≠ '*') :
    SegmentSpells host (c :: rest) value ↔ ∃ actual more, value = actual :: more ∧
      (c = '?' ∨ pathCharacterEqual host c actual = true) ∧ SegmentSpells host rest more :=
  spells_one hc

variable {host} in
@[simp] theorem globMatches_nil {values : List FilePath} : GlobMatches host [] values ↔ values = [] :=
  spells_nil

variable {host} in
theorem globMatches_star {rest values : List FilePath} :
    GlobMatches host (['*', '*'] :: rest) values ↔ GlobMatches host rest values ∨
      ∃ value more, values = value :: more ∧ GlobMatches host (['*', '*'] :: rest) more :=
  spells_star_step (by rfl)

variable {host} in
theorem globMatches_cons {p : FilePath} {rest values : List FilePath} (hp : p ≠ ['*', '*']) :
    GlobMatches host (p :: rest) values ↔ ∃ value more, values = value :: more ∧
      SegmentSpells host p value ∧ GlobMatches host rest more :=
  spells_one hp

/-- A glob with `**` behind it matches everything below what it matches. -/
theorem globMatches_below {patterns values : List FilePath} :
    GlobMatches host (patterns ++ [['*', '*']]) values ↔
      ∃ above, above <+: values ∧ GlobMatches host patterns above :=
  spells_append_star (by rfl)

theorem matchSegment_iff (pattern value : FilePath) :
    matchSegment host pattern value = true ↔ SegmentSpells host pattern value := by
  fun_induction matchSegment host pattern value with
  | case1 => simp
  | case2 => simp
  | case3 patternRest value ihSkip ihStay =>
    -- the star takes nothing, or one character and stays
    rw [Bool.or_eq_true, ihSkip, segmentSpells_star]
    cases value with
    | nil => simp
    | cons actual valueRest => simp [ihStay]
  | case4 c patternRest hc => simp [segmentSpells_cons hc]
  | case5 c patternRest hc actual valueRest ih => simp [segmentSpells_cons hc, ih]

theorem matchSegments_iff (patterns values : List FilePath) :
    matchSegments host patterns values = true ↔ GlobMatches host patterns values := by
  fun_induction matchSegments host patterns values with
  | case1 => simp
  | case2 => simp
  | case3 remaining values ihSkip ihStay =>
    rw [Bool.or_eq_true, ihSkip, globMatches_star]
    cases values with
    | nil => simp
    | cons pathSegment rest => simp [ihStay]
  | case4 patternSegment remaining hp => simp [globMatches_cons hp]
  | case5 patternSegment remaining hp pathSegment rest ih =>
    simp [globMatches_cons hp, ih, matchSegment_iff]

theorem matchesGlob_iff (rawPattern rawPath : FilePath) :
    matchesGlob host rawPattern rawPath = true ↔
      GlobMatches host (segments (normalizePattern host rawPattern))
        (segments (normalizeSourcePath host rawPath)) :=
  matchSegments_iff host _ _

/-- A dot spells itself only. -/
theorem segmentSpells_dot (h : SegmentSpells host ['.'] n) : n = ['.'] := by
  obtain ⟨c, rest, rfl, hc, hrest⟩ := (segmentSpells_cons (by decide)).mp h
  rw [segmentSpells_nil.mp hrest]
  have hdot : c = '.' := by
    rcases hc with hc | hc
    · exact absurd hc (by decide)
    · unfold pathCharacterEqual at hc
      split at hc
      · rw [beq_iff_eq, (host.toLower_dot '.').mpr rfl] at hc
        exact (host.toLower_dot c).mp hc.symm
      · exact (beq_iff_eq.mp hc).symm
  rw [hdot]

/-- Dots match no path of names. -/
theorem not_globMatches_dots {patterns : List FilePath} (hdots : ∀ p ∈ patterns, p = ['.'])
    (hne : names ≠ []) (hnames : ∀ n ∈ names, n ≠ ['.']) : ¬ GlobMatches host patterns names := by
  intro h
  cases patterns with
  | nil => exact hne (globMatches_nil.mp h)
  | cons p rest =>
    rw [hdots p (List.mem_cons_self ..)] at h
    obtain ⟨n, more, rfl, hn, -⟩ := (globMatches_cons (by decide)).mp h
    exact hnames n (List.mem_cons_self ..) (segmentSpells_dot host hn)

end Matching

/-! ## Exclusion -/

/-- What can be a name in a directory: not empty, not a dot, and without separators. -/
def IsName (n : Name) : Prop := n ≠ [] ∧ n ≠ ['.'] ∧ ∀ c ∈ n, eitherSeparator c = false

/-- The segments of a path below the project root; the root itself is spelled by a dot. -/
def pathSegments (names : List Name) : List FilePath := if names = [] then [['.']] else names

section Exclusion

variable {host : Host} {names : List Name}

theorem mem_intercalate {d : Char} (h : d ∈ [c].intercalate names) : d = c ∨ ∃ n ∈ names, d ∈ n := by
  induction names with
  | nil => cases h
  | cons first rest ih =>
    cases rest with
    | nil =>
      rw [List.intercalate_singleton] at h
      exact .inr ⟨first, List.mem_cons_self .., h⟩
    | cons second rest =>
      rw [List.intercalate_cons_cons, List.mem_append, List.mem_append, List.mem_singleton] at h
      rcases h with (h | h) | h
      · exact .inr ⟨first, List.mem_cons_self .., h⟩
      · exact .inl h
      · exact (ih h).imp_right fun ⟨n, hn, hd⟩ => ⟨n, List.mem_cons_of_mem _ hn, hd⟩

theorem slashed_makeRelative (hnames : ∀ n ∈ names, IsName n) : Slashed (makeRelative names) := by
  unfold makeRelative
  split
  · exact fun h => absurd h (by decide)
  · intro h
    rcases mem_intercalate h with h | ⟨n, hn, hb⟩
    · exact absurd h (by decide)
    · exact absurd ((hnames n hn).2.2 _ hb) (by decide)

theorem globNames_makeRelative (hnames : ∀ n ∈ names, IsName n) : globNames (makeRelative names) = names := by
  unfold makeRelative
  split
  · next h => rw [h, globNames_dot]
  · rw [globNames, pieces_intercalate eitherSeparator_slash,
      flatMap_pieces fun n hn => ⟨(hnames n hn).1, (hnames n hn).2.2⟩]
    exact List.filter_eq_self.mpr fun n hn => decide_eq_true (hnames n hn).2.1

/-- A text whose names are the path's has the path's segments. -/
theorem segments_of_names {q : FilePath} (hq : Slashed q) (hglob : globNames q = names)
    (hne : names ≠ []) : segments (normalizeSourcePath host q) = names := by
  rcases segments_normalizeSourcePath host hq with h | ⟨h, -⟩
  · rw [h, hglob]
  · exact absurd (hglob.symm.trans h) hne

theorem isPathSeparator_dot : isPathSeparator host '.' = false := by
  unfold isPathSeparator
  cases host.mingw32 <;> decide

theorem isPathSeparator_slash : isPathSeparator host '/' = true := rfl

theorem slash_pathSeparator : slash (pathSeparator host) = '/' := by
  unfold pathSeparator
  cases host.mingw32 <;> decide

theorem splitDirectories_dot : splitDirectories host ['.'] = [['.']] :=
  pieces_free (List.cons_ne_nil _ _) (by simp [isPathSeparator_dot])

theorem splitDirectories_dotSlash : splitDirectories host ['.', '/'] = [['.']] :=
  (pieces_concat isPathSeparator_slash ['.']).trans splitDirectories_dot

/-- The project root is spelled by a dot. -/
theorem normalizeSourcePath_dot : normalizeSourcePath host ['.'] = ['.'] := by
  have hnormalise : normalise host ['.'] = ['.'] := by
    simp [normalise, isPathSeparator_dot, splitDirectories_dot, isDirPath, hasTrailingPathSeparator]
  rw [normalizeSourcePath, hnormalise]
  decide

variable (host) in
theorem normalizeSourcePath_dotSlash : normalizeSourcePath host ['.', '/'] = ['.', '/'] := by
  have hnormalise : normalise host ['.', '/'] = ['.', pathSeparator host] := by
    simp [normalise, isPathSeparator_dot, isPathSeparator_slash, splitDirectories_dotSlash, isDirPath,
      hasTrailingPathSeparator]
  rw [normalizeSourcePath, hnormalise, List.map_cons, List.map_cons, slash_pathSeparator]
  decide

variable (host) in
/-- The text of a path has the path's segments, with a trailing slash or without. -/
theorem segments_candidate (hnames : ∀ n ∈ names, IsName n) :
    segments (normalizeSourcePath host (normalizeSourcePath host (relativeTo host names))) =
        pathSegments names ∧
      segments (normalizeSourcePath host
        (normalizeSourcePath host (relativeTo host names) ++ ['/'])) = pathSegments names := by
  have hglob : globNames (normalizeSourcePath host (relativeTo host names)) = names := by
    rw [globNames_normalizeSourcePath, relativeTo, globNames_normalizeSourcePath,
      globNames_makeRelative hnames]
  have hslashed := slashed_normalizeSourcePath host (relativeTo host names)
  by_cases hne : names = []
  · subst hne
    have hroot : relativeTo host [] = ['.'] := normalizeSourcePath_dot
    have hdotSlash := normalizeSourcePath_dotSlash host
    simp only [hroot, normalizeSourcePath_dot, List.singleton_append, hdotSlash]
    exact ⟨by decide, by decide⟩
  · rw [pathSegments, if_neg hne]
    refine ⟨segments_of_names hslashed hglob hne, segments_of_names ?_ ?_ hne⟩
    · intro h
      rcases List.mem_append.mp h with h | h
      · exact hslashed h
      · exact absurd h (by decide)
    · rw [globNames_append eitherSeparator_slash, hglob, globNames_nil, List.append_nil]

/-- A normalized glob followed by `/**` matches everything below what the glob matches. -/
theorem matchesGlob_descendants {q : FilePath} (hq : Slashed q) (path : FilePath) :
    matchesGlob host (trimTrailingSlash q ++ ['/', '*', '*']) path = true ↔
      ∃ above, above <+: segments (normalizeSourcePath host path) ∧
        GlobMatches host (globNames q) above := by
  have hstar : globNames ['*', '*'] = [['*', '*']] := by decide
  have hnames : globNames (trimTrailingSlash q ++ ['/', '*', '*']) = globNames q ++ [['*', '*']] := by
    rw [globNames_append eitherSeparator_slash, globNames_trimTrailingSlash, hstar]
  have hslashed : Slashed (trimTrailingSlash q ++ ['/', '*', '*']) := by
    intro h
    rcases List.mem_append.mp h with h | h
    · exact hq (mem_trimTrailingSlash h)
    · exact absurd h (by decide)
  rw [matchesGlob_iff, segments_normalizePattern hslashed (by rw [hnames]; simp), hnames,
    globMatches_below]

/-- **A directory is excluded** when a glob matches its path or the path of a directory above it. -/
theorem excluded_directory (hnames : ∀ n ∈ names, IsName n) (excludes : List FilePath) :
    excluded host (excludes.map (normalizePattern host)) (relativeTo host names) true = true ↔
      ∃ p ∈ excludes, ∃ above, above <+: pathSegments names ∧
        GlobMatches host (globNames p) above := by
  obtain ⟨hpath, hslash⟩ := segments_candidate host hnames
  simp only [excluded, if_true, Bool.true_and, List.any_map, List.any_eq_true, Function.comp_apply,
    Bool.or_eq_true, List.any_cons, List.any_nil, Bool.or_false]
  refine exists_congr fun p => and_congr_right fun _ => ?_
  rw [matchesGlob_descendants (slashed_normalizePattern host p), globNames_normalizePattern,
    matchesGlob_iff, matchesGlob_iff, hpath, hslash, or_self]
  constructor
  · rintro (h | h)
    · by_cases hnone : globNames p = []
      · exact ⟨[], List.nil_prefix, by rw [hnone]; exact globMatches_nil.mpr rfl⟩
      · rw [segments_normalizePattern (slashed_normalizePattern host p)
          (by rwa [globNames_normalizePattern]), globNames_normalizePattern] at h
        exact ⟨_, List.prefix_refl _, h⟩
    · exact h
  · exact .inr

/-- **A file is excluded by its own test** when a glob matches its path. -/
theorem excluded_file (hnames : ∀ n ∈ names, IsName n) (hne : names ≠ []) (excludes : List FilePath) :
    excluded host (excludes.map (normalizePattern host)) (relativeTo host names) false = true ↔
      ∃ p ∈ excludes, GlobMatches host (globNames p) names := by
  have hpath := (segments_candidate host hnames).1
  simp only [pathSegments, if_neg hne] at hpath
  simp only [excluded, Bool.false_and, Bool.or_false, List.any_map, List.any_eq_true,
    Function.comp_apply, if_false, Bool.false_eq_true, List.any_cons, List.any_nil]
  refine exists_congr fun p => and_congr_right fun _ => ?_
  rw [matchesGlob_iff, hpath]
  by_cases hnone : globNames p = []
  · -- such a glob has no segments or only dots, and matches no path of names
    rw [hnone, globMatches_nil]
    refine iff_of_false ?_ hne
    exact not_globMatches_dots host (segments_normalizePattern_none (slashed_normalizePattern host p)
      (by rwa [globNames_normalizePattern])) hne fun n hn => (hnames n hn).2.1
  · rw [segments_normalizePattern (slashed_normalizePattern host p)
      (by rwa [globNames_normalizePattern]), globNames_normalizePattern]

/-! ## The key of a path -/

/-- The characters of a name as the platform compares them. -/
def foldName (host : Host) (n : Name) : Name := if host.mingw32 then n.map host.toLower else n

theorem pathOrderingKey_segments (q : FilePath) : segments (pathOrderingKey host q) =
    (segments (normalizeSourcePath host q)).map (foldName host) := by
  unfold pathOrderingKey
  split
  · next hhost =>
    have hlower : ∀ c, isSlash (host.toLower c) = isSlash c := by
      intro c
      rw [Bool.eq_iff_iff, isSlash, isSlash, beq_iff_eq, beq_iff_eq, host.toLower_slash]
    have hfold : foldName host = List.map host.toLower := funext fun n => if_pos hhost
    rw [segments_eq, pieces_map hlower, ← segments_eq, hfold]
  · next hhost =>
    have hfold : foldName host = id := funext fun n => if_neg hhost
    rw [hfold, List.map_id]

/-- The segments of the text of a path. -/
theorem segments_makeRelative (hnames : ∀ n ∈ names, IsName n) :
    segments (normalizeSourcePath host (makeRelative names)) = pathSegments names := by
  by_cases hne : names = []
  · subst hne
    have hroot : normalizeSourcePath host (makeRelative []) = ['.'] := normalizeSourcePath_dot
    rw [hroot]
    decide
  · rw [pathSegments, if_neg hne]
    exact segments_of_names (slashed_makeRelative hnames) (globNames_makeRelative hnames) hne

/-- The segments of the text of a path that was normalized before. -/
theorem segments_relativeTo (hnames : ∀ n ∈ names, IsName n) :
    segments (normalizeSourcePath host (relativeTo host names)) = pathSegments names := by
  by_cases hne : names = []
  · subst hne
    have hroot : relativeTo host [] = ['.'] := normalizeSourcePath_dot
    rw [hroot, normalizeSourcePath_dot]
    decide
  · rw [pathSegments, if_neg hne]
    refine segments_of_names (slashed_normalizeSourcePath host _) ?_ hne
    rw [relativeTo, globNames_normalizeSourcePath, globNames_makeRelative hnames]

/-- Only a dot is compared as a dot. -/
theorem foldName_eq_dot {n : Name} (h : foldName host n = foldName host ['.']) : n = ['.'] := by
  unfold foldName at h
  split at h
  · obtain ⟨c, rfl, hc⟩ := List.map_eq_singleton_iff.mp h
    rw [(host.toLower_dot '.').mpr rfl] at hc
    rw [(host.toLower_dot c).mp hc]
  · exact h

/-- Equal segments are those of equal names, as the platform compares them. -/
theorem foldName_pathSegments {other : List Name} (hnames : ∀ n ∈ names, IsName n)
    (hother : ∀ n ∈ other, IsName n)
    (h : (pathSegments names).map (foldName host) = (pathSegments other).map (foldName host)) :
    names.map (foldName host) = other.map (foldName host) := by
  have hroot : ∀ {l : List Name}, (∀ n ∈ l, IsName n) →
      [foldName host ['.']] ≠ l.map (foldName host) := by
    intro l hl heq
    obtain ⟨n, rfl, hn⟩ := List.map_eq_singleton_iff.mp heq.symm
    exact (hl n (List.mem_singleton_self n)).2.1 (foldName_eq_dot hn)
  unfold pathSegments at h
  split at h
  · split at h
    · next hn ho => rw [hn, ho]
    · exact absurd h (hroot hother)
  · split at h
    · exact absurd h.symm (hroot hnames)
    · exact h

end Exclusion

end Tala.Frontend.SourceSet
