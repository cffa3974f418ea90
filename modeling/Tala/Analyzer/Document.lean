import Mathlib.Data.List.DropRight
import Tala.Library.Codec
import Tala.Syntax.SourceAgreement

/-!
# `Analyzer.Document` — compiler positions as editor positions

The compiler counts lines and scalar columns from one. An editor counts lines from zero and UTF-16 code units
from the start of the line. `toUtf16Position` cuts the source at `\n` and counts the units in front of the
column; `protocolPositionAfter` is the position an editor gives the same character, where `\r` alone ends a
line too. The scanner of the parser counts lines the editor's way, so the two agree where no lone `\r` stands
in front of the character.
-/

namespace Tala.Analyzer

open Tala.Syntax Tala.Syntax.Lexer Tala.Syntax.SourceText

/-! ## Positions -/

structure ProtocolPosition where
  protocolLine : Int
  protocolCharacter : Int
  deriving DecidableEq, Repr

def toProtocolPosition (position : SourcePosition) : ProtocolPosition :=
  ⟨max 0 ((position.sourceLine : Int) - 1), max 0 ((position.sourceColumn : Int) - 1)⟩

/-- A scalar outside the basic multilingual plane is a pair of surrogates. -/
def utf16Width (character : Char) : Int := if character.toNat > 65535 then 2 else 1

def utf16Column (line : SourceText) (scalarColumn : Int) : Int :=
  (line.take (max 0 scalarColumn).toNat).foldl (fun width character => width + utf16Width character) 0

/-- A line without its `\n` and without the `\r` in front of it. -/
def lineAt (source : SourceText) (zeroBasedLine : Int) : SourceText :=
  match (source.splitOn lineFeed).drop (max 0 zeroBasedLine).toNat with
  | line :: _ => line.rdropWhile (· = carriageReturn)
  | [] => []

def toUtf16Position (source : SourceText) (position : ProtocolPosition) : ProtocolPosition :=
  let line := max 0 position.protocolLine
  ⟨line, utf16Column (lineAt source line) position.protocolCharacter⟩

/-! ## The editor's positions -/

def utf16Length (text : SourceText) : Int := (text.map utf16Width).sum

/-- Carriage returns that no line feed follows. -/
def loneReturns : SourceText → Nat
  | [] => 0
  | character :: rest =>
      (if character = carriageReturn ∧ rest.head? ≠ some lineFeed then 1 else 0) + loneReturns rest

/-- Line breaks: `\n`, `\r\n` or a lone `\r`. -/
def lineBreaks (text : SourceText) : Nat := text.count lineFeed + loneReturns text

/-- What stands after the last line break. -/
def currentLine (text : SourceText) : SourceText := text.rtakeWhile fun character => !isLineBreak character

/-- The editor's position of the character that stands behind a text. -/
def protocolPositionAfter (before : SourceText) : ProtocolPosition :=
  ⟨lineBreaks before, utf16Length (currentLine before)⟩

/-- The text of a source that is consumed when `remaining` is left. -/
def consumed (source remaining : SourceText) : SourceText := source.take (source.length - remaining.length)

/-- Where tokens start and end: the position of the scanner there, and the text in front of it. -/
def tokenEdges (source : SourceText) : SourceText → List Round → List (SourcePosition × SourceText)
  | _, [] => []
  | input, round :: later =>
      let edges := match round.roundLexeme with
        | .token _ _ =>
            [(round.roundStart, consumed source input), (round.roundEnd, consumed source round.roundRemaining)]
        | _ => []
      edges ++ tokenEdges source round.roundRemaining later

/-- The converter counts the units of the line the character stands on: no lone `\r` stands in front of it, or
it is the first of its line, or the line of that number between two `\n` happens to be as wide up to there. -/
def OnItsLine (source before : SourceText) : Prop :=
  loneReturns before = 0 ∨ currentLine before = [] ∨
    utf16Length ((lineAt source (lineBreaks before)).take (currentLine before).length)
      = utf16Length (currentLine before)

/-! ## Widths -/

theorem utf16Column_eq (line : SourceText) (column : Nat) :
    utf16Column line column = utf16Length (line.take column) := by
  have hfold : ∀ (text : SourceText) (start : Int),
      text.foldl (fun width character => width + utf16Width character) start = start + utf16Length text := by
    intro text
    induction text with
    | nil => simp [utf16Length]
    | cons character rest ih =>
        intro start
        rw [List.foldl_cons, ih]
        simp [utf16Length, Int.add_assoc]
  have hcolumn : (max 0 (column : Int)).toNat = column := by omega
  rw [utf16Column, hfold, hcolumn, Int.zero_add]

/-! ## Text after the last line break -/

section LastLine

variable {p : Char → Bool} {first second : SourceText} {character : Char}

theorem rtakeWhile_append_of_all (h : ∀ other ∈ second, p other = true) :
    (first ++ second).rtakeWhile p = first.rtakeWhile p ++ second := by
  have hall : ∀ other ∈ second.reverse, p other = true := fun other hmem => h other (List.mem_reverse.mp hmem)
  rw [List.rtakeWhile, List.rtakeWhile, List.reverse_append, List.takeWhile_append_of_pos hall]
  simp

theorem rtakeWhile_append_of_exists (h : ∃ other ∈ second, p other = false) :
    (first ++ second).rtakeWhile p = second.rtakeWhile p := by
  have hshort : ¬ (second.reverse.takeWhile p).length = second.reverse.length := by
    intro hlength
    have hself : second.reverse.takeWhile p = second.reverse :=
      (List.takeWhile_prefix p).eq_of_length hlength
    obtain ⟨other, hmem, hother⟩ := h
    have htrue := (List.takeWhile_eq_self_iff.mp hself) other (List.mem_reverse.mpr hmem)
    rw [hother] at htrue
    cases htrue
  rw [List.rtakeWhile, List.rtakeWhile, List.reverse_append, List.takeWhile_append, if_neg hshort]

theorem rtakeWhile_of_all (h : ∀ other ∈ second, p other = true) : second.rtakeWhile p = second :=
  List.rtakeWhile_eq_self_iff.mpr h

end LastLine

section Lines

variable {text rest lineBreak remaining : SourceText} {character : Char} {position : SourcePosition}

theorem loneReturns_append_of_boundary {first second : SourceText} (h : Boundary first second) :
    loneReturns (first ++ second) = loneReturns first + loneReturns second := by
  induction first with
  | nil => simp [loneReturns]
  | cons character rest ih =>
      cases rest with
      | nil =>
          have hhead : character = carriageReturn → second.head? ≠ some lineFeed :=
            fun heq => h (congrArg some heq)
          by_cases hreturn : character = carriageReturn
          · simp [loneReturns, hreturn, hhead hreturn]
          · simp [loneReturns, hreturn]
      | cons next more =>
          have hrest : Boundary (next :: more) second := by
            intro hlast
            exact h (by rw [← hlast]; rfl)
          have hcons : ∀ more', loneReturns (character :: next :: more')
              = (if character = carriageReturn ∧ some next ≠ some lineFeed then 1 else 0)
                + loneReturns (next :: more') := fun _ => rfl
          rw [List.cons_append, List.cons_append, hcons, hcons, ← List.cons_append, ih hrest, Nat.add_assoc]

theorem lineBreaks_append (h : Boundary rest remaining) :
    lineBreaks (rest ++ remaining) = lineBreaks rest + lineBreaks remaining := by
  rw [lineBreaks, loneReturns_append_of_boundary h, List.count_append, lineBreaks, lineBreaks]
  omega

/-- Text without a line break is what stands after the last one. -/
theorem lineBreaks_eq_zero : lineBreaks text = 0 ↔ ∀ other ∈ text, isLineBreak other = false := by
  induction text with
  | nil => simp [lineBreaks, loneReturns]
  | cons character rest ih =>
      have hcount : lineBreaks (character :: rest) = 0 ↔
          character ≠ lineFeed ∧ ¬ (character = carriageReturn ∧ rest.head? ≠ some lineFeed) ∧
            lineBreaks rest = 0 := by
        rw [lineBreaks, loneReturns, List.count_cons, lineBreaks]
        split <;> split <;> simp_all
      rw [hcount, ih]
      simp only [List.mem_cons, forall_eq_or_imp, isLineBreak, Bool.or_eq_false_iff, decide_eq_false_iff_not]
      constructor
      · rintro ⟨hfeed, hreturn, hrest⟩
        refine ⟨⟨fun heq => hreturn ⟨heq, ?_⟩, hfeed⟩, hrest⟩
        intro hhead
        cases rest with
        | nil => cases hhead
        | cons next more => exact (hrest next (by simp)).2 (Option.some.inj hhead)
      · rintro ⟨⟨hreturn, hfeed⟩, hrest⟩
        exact ⟨hfeed, fun h => hreturn h.1, hrest⟩

theorem currentLine_of_plain (h : lineBreaks text = 0) : currentLine text = text := by
  apply rtakeWhile_of_all
  intro other hmem
  rw [lineBreaks_eq_zero.mp h other hmem]
  rfl

theorem isLineBreak_of_mem_currentLine : ∀ other ∈ currentLine text, isLineBreak other = false := by
  intro other hmem
  have hplain := List.mem_rtakeWhile_imp hmem
  simpa using hplain

theorem currentLine_append_plain (h : lineBreaks rest = 0) :
    currentLine (text ++ rest) = currentLine text ++ rest := by
  apply rtakeWhile_append_of_all
  intro other hmem
  rw [lineBreaks_eq_zero.mp h other hmem]
  rfl

theorem currentLine_append_broken (h : lineBreaks rest ≠ 0) : currentLine (text ++ rest) = currentLine rest := by
  apply rtakeWhile_append_of_exists
  by_contra hnone
  apply h
  rw [lineBreaks_eq_zero]
  intro other hmem
  cases hbreak : isLineBreak other with
  | false => rfl
  | true => exact absurd ⟨other, hmem, by simp [hbreak]⟩ hnone

/-- A line break is one, and nothing of it is on the line it starts. -/
theorem lineBreak_counts (h : splitLineBreak text = some (lineBreak, remaining)) :
    lineBreaks lineBreak = 1 ∧ currentLine lineBreak = [] := by
  cases text with
  | nil => cases h
  | cons character rest =>
      simp only [splitLineBreak] at h
      split at h
      · split at h
        · cases h
          exact ⟨rfl, rfl⟩
        · cases h
          exact ⟨rfl, rfl⟩
      · split at h
        · cases h
          exact ⟨rfl, rfl⟩
        · cases h

/-- The position behind a text, by its line breaks. -/
theorem advanceText_eq (position : SourcePosition) (text : SourceText) :
    advanceText position text
      = if lineBreaks text = 0 then position.right text.length
        else ⟨position.sourceLine + lineBreaks text, (currentLine text).length + 1⟩ := by
  fun_induction advanceText position text with
  | case1 position => simp [lineBreaks, loneReturns]
  | case2 position character rest ih =>
      rw [ih]
      cases hsplit : splitLineBreak (character :: rest) with
      | none =>
          have hplain := splitLineBreak_eq_none.mp hsplit
          rw [consumeSourceUnit_character hplain]
          have hone : lineBreaks [character] = 0 := lineBreaks_eq_zero.mpr (by simpa using hplain)
          have hboundary : Boundary [character] rest := by
            intro hlast
            have hreturn : character = carriageReturn := Option.some.inj hlast
            rw [hreturn] at hplain
            cases hplain
          have hcount : lineBreaks (character :: rest) = lineBreaks rest := by
            have happend := lineBreaks_append hboundary
            rw [hone, Nat.zero_add] at happend
            exact happend
          simp only [hcount]
          split
          · rw [SourcePosition.right_right, List.length_cons, Nat.add_comm]
          · next hbroken =>
              rw [show currentLine (character :: rest) = currentLine ([character] ++ rest) from rfl,
                currentLine_append_broken hbroken]
              rfl
      | some split =>
          obtain ⟨lineBreak, remaining⟩ := split
          obtain ⟨hinput, hnonempty, hboundary⟩ := splitLineBreak_eq_some hsplit
          obtain ⟨hone, hempty⟩ := lineBreak_counts hsplit
          have hcount : lineBreaks (character :: rest) = 1 + lineBreaks remaining := by
            rw [hinput, lineBreaks_append hboundary, hone]
          rw [consumeSourceUnit_lineBreak hsplit, if_neg (by omega : ¬ lineBreaks (character :: rest) = 0)]
          simp only [hcount]
          rw [hinput]
          split
          · next hplain =>
              rw [currentLine_append_plain hplain, hempty, List.nil_append, hplain]
              simp [SourcePosition.nextLine, SourcePosition.right, Nat.add_comm]
          · next hbroken =>
              rw [currentLine_append_broken hbroken]
              simp [SourcePosition.nextLine, Nat.add_assoc]

theorem advanceText_start (text : SourceText) :
    advanceText ⟨1, 1⟩ text = ⟨lineBreaks text + 1, (currentLine text).length + 1⟩ := by
  rw [advanceText_eq]
  split
  · next hplain =>
      rw [currentLine_of_plain hplain, hplain]
      simp [SourcePosition.right, Nat.add_comm]
  · rw [Nat.add_comm]

end Lines

/-! ## Lines between two line feeds -/

section LineFeeds

variable {before after : SourceText}

/-- In front of the line feeds that are left, the line begins with what stands after the last one. -/
theorem drop_splitOn (before after : SourceText) :
    ∃ more tail, ((before ++ after).splitOn lineFeed).drop (before.count lineFeed)
      = (before.rtakeWhile (· ≠ lineFeed) ++ more) :: tail := by
  induction before with
  | nil =>
      obtain ⟨head, tail, hsplit⟩ := List.exists_cons_of_ne_nil (List.splitOn_ne_nil lineFeed after)
      exact ⟨head, tail, by simp [hsplit]⟩
  | cons character rest ih =>
      obtain ⟨more, tail, hrest⟩ := ih
      rw [List.cons_append, List.splitOn_cons_eq_if_modifyHead, List.count_cons]
      by_cases hfeed : character = lineFeed
      · -- the line feed ends a line of its own
        refine ⟨more, tail, ?_⟩
        have hlast : (character :: rest).rtakeWhile (· ≠ lineFeed) = rest.rtakeWhile (· ≠ lineFeed) := by
          by_cases hplain : ∀ other ∈ rest, decide (other ≠ lineFeed) = true
          · rw [show character :: rest = [character] ++ rest from rfl, rtakeWhile_append_of_all hplain, hfeed,
              rtakeWhile_of_all hplain]
            rfl
          · rw [show character :: rest = [character] ++ rest from rfl]
            apply rtakeWhile_append_of_exists
            simpa using hplain
        simp only [hfeed, beq_self_eq_true, if_true]
        rw [List.drop_succ_cons, hrest, ← hlast, hfeed]
      · have hbeq : (character == lineFeed) = false := by simpa using hfeed
        simp only [hbeq, Bool.false_eq_true, if_false, Nat.add_zero]
        by_cases hplain : ∀ other ∈ rest, decide (other ≠ lineFeed) = true
        · have hzero : rest.count lineFeed = 0 := by
            apply List.count_eq_zero.mpr
            intro hmem
            simpa using hplain lineFeed hmem
          rw [hzero, List.drop_zero, rtakeWhile_of_all hplain] at hrest
          refine ⟨more, tail, ?_⟩
          rw [hzero, hrest, rtakeWhile_of_all]
          · rfl
          · intro other hmem
            rcases List.mem_cons.mp hmem with rfl | hother
            · simpa using hfeed
            · exact hplain other hother
        · have hexists : ∃ other ∈ rest, decide (other ≠ lineFeed) = false := by simpa using hplain
          have hpositive : 0 < rest.count lineFeed := by
            obtain ⟨other, hmem, hother⟩ := hexists
            apply List.count_pos_iff.mpr
            have heq : other = lineFeed := by simpa using hother
            rwa [← heq]
          obtain ⟨count, hcount⟩ := Nat.exists_eq_succ_of_ne_zero (Nat.pos_iff_ne_zero.mp hpositive)
          refine ⟨more, tail, ?_⟩
          rw [show character :: rest = [character] ++ rest from rfl, rtakeWhile_append_of_exists hexists, ← hrest,
            hcount]
          cases (rest ++ after).splitOn lineFeed <;> rfl

/-- Without a lone carriage return, what stands after the last line feed stands after the last line break. -/
theorem rtakeWhile_lineFeed (h : loneReturns before = 0) :
    before.rtakeWhile (· ≠ lineFeed) = currentLine before := by
  induction before with
  | nil => rfl
  | cons character rest ih =>
      rw [loneReturns] at h
      have hrest : loneReturns rest = 0 := by omega
      have hreturn : ¬ (character = carriageReturn ∧ rest.head? ≠ some lineFeed) := by
        intro hlone
        rw [if_pos hlone] at h
        omega
      have hlone := ih hrest
      by_cases hplain : lineBreaks rest = 0
      · have hfeeds : ∀ other ∈ rest, decide (other ≠ lineFeed) = true := by
          intro other hmem
          have hother := lineBreaks_eq_zero.mp hplain other hmem
          simp only [isLineBreak, Bool.or_eq_false_iff, decide_eq_false_iff_not] at hother
          simpa using hother.2
        have hcharacter : character ≠ carriageReturn := by
          intro heq
          apply hreturn
          refine ⟨heq, ?_⟩
          intro hhead
          cases rest with
          | nil => cases hhead
          | cons next more => simpa [Option.some.inj hhead] using hfeeds next (by simp)
        rw [show character :: rest = [character] ++ rest from rfl, currentLine_append_plain hplain,
          rtakeWhile_append_of_all hfeeds]
        congr 1
        by_cases hfeed : character = lineFeed
        · rw [hfeed]
          rfl
        · simp [currentLine, List.rtakeWhile, isLineBreak, hcharacter, hfeed]
      · have hfeeds : ∃ other ∈ rest, decide (other ≠ lineFeed) = false := by
          have hcount : rest.count lineFeed ≠ 0 := by
            intro hzero
            apply hplain
            rw [lineBreaks, hzero, hrest]
          exact ⟨lineFeed, List.count_pos_iff.mp (Nat.pos_iff_ne_zero.mpr hcount), by simp⟩
        rw [show character :: rest = [character] ++ rest from rfl, currentLine_append_broken hplain,
          rtakeWhile_append_of_exists hfeeds, hlone]

/-- The carriage returns at the end of a line are not in front of a character of it. -/
theorem take_rdropWhile {line more : SourceText} (h : carriageReturn ∉ line) :
    ((line ++ more).rdropWhile (· = carriageReturn)).take line.length = line := by
  rw [List.rdropWhile, List.reverse_append, List.dropWhile_append]
  split
  · have hself : line.reverse.dropWhile (· = carriageReturn) = line.reverse := by
      apply List.dropWhile_eq_self_iff.mpr
      intro hlength hreturn
      apply h
      have hmem := List.getElem_mem hlength
      rw [decide_eq_true_eq] at hreturn
      rw [hreturn] at hmem
      exact List.mem_reverse.mp hmem
    rw [hself, List.reverse_reverse, List.take_length]
  · rw [List.reverse_append, List.reverse_reverse, List.take_left]

end LineFeeds

/-! ## What a scanner reads -/

/-- From one position to another, a text is read that ends in front of no half of a line break. -/
def Reads (position : SourcePosition) (input : SourceText) (finish : SourcePosition) (remaining : SourceText) :
    Prop :=
  ∃ text, input = text ++ remaining ∧ finish = advanceText position text ∧ Boundary text remaining

section Reading

variable {classes : CharacterClasses} {file : String} {character delimiter : Char}
  {position middle finish start : SourcePosition} {input left remaining rest text reversed : SourceText}
  {kind : SourceFragmentKind} {level : Nat} {round : Round}

theorem Reads.refl : Reads position input position input :=
  ⟨[], rfl, advanceText_nil.symm, nofun⟩

theorem Reads.trans (h : Reads position input middle left) (h' : Reads middle left finish remaining) :
    Reads position input finish remaining := by
  obtain ⟨first, rfl, rfl, hfirst⟩ := h
  obtain ⟨second, rfl, rfl, hsecond⟩ := h'
  refine ⟨first ++ second, by rw [List.append_assoc], ?_, ?_⟩
  · rw [advanceText_append]
    intro hlast
    cases second with
    | nil => exact nofun
    | cons next more => exact hfirst hlast
  · intro hlast
    cases second with
    | nil =>
        rw [List.append_nil] at hlast
        exact hfirst hlast
    | cons next more =>
        rw [List.getLast?_append_cons] at hlast
        exact hsecond hlast

/-- Text without a line break is read column by column. -/
theorem Reads.plain (h : ∀ other ∈ text, isLineBreak other = false) :
    Reads position (text ++ remaining) (position.right text.length) remaining := by
  refine ⟨text, rfl, (advanceText_plain h).symm, ?_⟩
  intro hlast
  have hreturn := h carriageReturn (List.mem_of_getLast? hlast)
  cases hreturn

theorem Reads.advance (h : ∀ other ∈ text, isLineBreak other = false) :
    Reads position (text ++ remaining) (advanceText position text) remaining := by
  rw [advanceText_plain h]
  exact .plain h

theorem Reads.single (h : isLineBreak character = false) :
    Reads position (character :: rest) (advanceText position [character]) rest := by
  have hplain : ∀ other ∈ [character], isLineBreak other = false := by simpa using h
  exact .advance hplain

theorem Reads.unit : Reads position (character :: rest) (consumeSourceUnit position (character :: rest)).2.2
    (consumeSourceUnit position (character :: rest)).2.1 :=
  ⟨_, (consumeSourceUnit_append _ _).symm, advanceText_consumeSourceUnit.symm, boundary_consumeSourceUnit⟩

theorem closer_plain (level : Nat) : ∀ other ∈ closer level, isLineBreak other = false := by
  intro other hmem
  simp only [closer, List.mem_cons, List.mem_append, List.mem_replicate, List.not_mem_nil, or_false] at hmem
  rcases hmem with rfl | ⟨-, rfl⟩ | rfl <;> rfl

theorem consumeLong_reads
    (h : consumeLong file kind start level position reversed input = .ok (text, finish, remaining)) :
    Reads position input finish remaining := by
  fun_induction consumeLong file kind start level position reversed input with
  | case1 position reversed input rest hcloser =>
      cases h
      rw [stripPrefix_eq_some.mp hcloser]
      exact .advance (closer_plain level)
  | case2 => cases h
  | case3 position reversed character rest unit hcloser ih => exact Reads.unit.trans (ih h)

theorem consumeQuoted_reads (hdelimiter : isLineBreak delimiter = false)
    (h : consumeQuoted file kind delimiter start position reversed input = .ok (text, finish, remaining)) :
    Reads position input finish remaining := by
  fun_induction consumeQuoted file kind delimiter start position reversed input with
  | case1 => cases h
  | case2 position reversed rest =>
      cases h
      exact .single hdelimiter
  | case3 => cases h
  | case4 position reversed next rest slashEnd escaped hdifferent ih =>
      have hslash : Reads position (backslash :: next :: rest) slashEnd (next :: rest) :=
        .single rfl
      exact hslash.trans (Reads.unit.trans (ih h))
  | case5 position reversed character rest hdifferent hslash unit ih => exact Reads.unit.trans (ih h)

theorem opener_plain {opener : SourceText} (h : SourceText.longBracketOpener input = some (level, opener, left)) :
    ∀ other ∈ opener, isLineBreak other = false := by
  rw [(SourceText.longBracketOpener_eq_some h).2]
  intro other hmem
  simp only [List.mem_cons, List.mem_append, List.mem_replicate, List.not_mem_nil, or_false] at hmem
  rcases hmem with rfl | ⟨-, rfl⟩ | rfl <;> rfl

theorem scanOne_reads {found : Found} (h : scanOne file position character rest = .ok (found, finish, remaining)) :
    Reads position (character :: rest) finish remaining := by
  rw [scanOne] at h
  split at h
  · next after hdashes =>
      rw [stripPrefix_eq_some.mp hdashes]
      split at h
      · next level opener content hopener =>
          obtain ⟨text, hlong, -⟩ := map_asFragment_eq_ok h
          have hplain : ∀ other ∈ ['-', '-'] ++ opener, isLineBreak other = false := by
            intro other hmem
            rcases List.mem_append.mp hmem with hdash | hother
            · simp only [List.mem_cons, List.not_mem_nil, or_false, or_self] at hdash
              rw [hdash]
              rfl
            · exact opener_plain hopener other hother
          rw [(SourceText.longBracketOpener_eq_some hopener).1, ← List.append_assoc]
          exact (Reads.advance hplain).trans (consumeLong_reads hlong)
      · cases h
        have hplain : ∀ other ∈ ['-', '-'] ++ after.takeWhile (fun character => !isLineBreak character),
            isLineBreak other = false := by
          intro other hmem
          rcases List.mem_append.mp hmem with hdash | hother
          · simp only [List.mem_cons, List.not_mem_nil, or_false, or_self] at hdash
            rw [hdash]
            rfl
          · simpa using List.mem_takeWhile_imp hother
        conv =>
          arg 2
          rw [← List.takeWhile_append_dropWhile (p := fun character => !isLineBreak character) (l := after),
            ← List.append_assoc]
        exact .advance hplain
  · split at h
    · next level opener content hopener =>
        obtain ⟨text, hlong, -⟩ := map_asFragment_eq_ok h
        rw [(SourceText.longBracketOpener_eq_some hopener).1]
        exact (Reads.advance (opener_plain hopener)).trans (consumeLong_reads hlong)
    · split at h
      · next hquote =>
          obtain ⟨text, hquoted, -⟩ := map_asFragment_eq_ok h
          rw [hquote]
          exact (Reads.single rfl).trans (consumeQuoted_reads rfl hquoted)
      · split at h
        · next hquote =>
            obtain ⟨text, hquoted, -⟩ := map_asFragment_eq_ok h
            rw [hquote]
            exact (Reads.single rfl).trans (consumeQuoted_reads rfl hquoted)
        · cases h
          exact .unit

theorem codeRun_reads (h : CodeRun file position input finish remaining) :
    Reads position input finish remaining := by
  induction h with
  | done => exact .refl
  | unit _ _ ih => exact Reads.unit.trans ih

/-! ## What the lexer reads -/

theorem number_reads (h : lexNumber classes file position input = .ok round) :
    Reads position input round.roundEnd round.roundRemaining := by
  obtain ⟨kind, rfl, -, -⟩ := number_parts h
  have hinput := scanNumericCandidate_append classes input
  have hplain : ∀ other ∈ (scanNumericCandidate classes input).1, isLineBreak other = false := by
    intro other hmem
    rcases @candidate_ordinary classes input false other hmem with hother | rfl | rfl
    · exact hother.2.2.2.2
    · rfl
    · rfl
  conv =>
    arg 2
    rw [← hinput]
  exact .plain hplain

/-- Only a number has a separator. -/
theorem lexNumber_of_hasSeparator (h : lexRound classes file position character rest = .ok round)
    (hseparator : round.roundLexeme.hasSeparator = true) :
    lexNumber classes file position (character :: rest) = .ok round := by
  have hunprotected := isCodeToken_unprotected (isCodeToken_of_hasSeparator hseparator)
  have hnotFound : ∀ {first protects}, ¬ FoundAs file position first rest round protects := by
    rintro _ _ ⟨_, _, _, _, _, hprotects⟩
    rw [hunprotected] at hprotects
    cases hprotects
  rw [lexRound] at h
  split at h
  · next remaining hdashes => exact absurd (comment_found hdashes h) hnotFound
  · split at h
    · next hdashes _ level openerWidth content hopener =>
        exact absurd (rawString_found hdashes hopener h) hnotFound
    · split at h
      · cases h
        cases hseparator
      · split at h
        · cases h
          cases hseparator
        · split at h
          · cases h
            unfold lexName plainToken at hseparator
            simp only at hseparator
            split at hseparator <;> cases hseparator
          · split at h
            · exact h
            · split at h
              · exact absurd (string_found h) hnotFound
              · split at h
                · next hapostrophe =>
                    rw [hapostrophe] at h
                    exact absurd (character_found h) hnotFound
                · unfold lexSymbol at h
                  split at h
                  · cases h
                    cases hseparator
                  · cases h

/-- **A round reads its text**, and ends at the position behind it. -/
theorem lexRound_reads (h : lexRound classes file position character rest = .ok round) :
    round.roundStart = position ∧ Reads position (character :: rest) round.roundEnd round.roundRemaining := by
  rcases round_read h with ⟨protects, kind, text, hfound, -, hstart, -⟩ | hread
  · exact ⟨hstart, scanOne_reads hfound⟩
  · refine ⟨hread.start, ?_⟩
    cases hseparator : round.roundLexeme.hasSeparator with
    | false => exact codeRun_reads (hread.whole hseparator)
    | true => exact number_reads (lexNumber_of_hasSeparator h hseparator)

variable {source before : SourceText}

theorem mem_tokenEdges_cons {later : List Round} (h : (finish, before) ∈ tokenEdges source input (round :: later)) :
    (finish = round.roundStart ∧ before = consumed source input) ∨
      (finish = round.roundEnd ∧ before = consumed source round.roundRemaining) ∨
      (finish, before) ∈ tokenEdges source round.roundRemaining later := by
  rw [tokenEdges] at h
  rcases List.mem_append.mp h with hhere | hlater
  · split at hhere
    · simp only [List.mem_cons, Prod.mk.injEq, List.not_mem_nil, or_false] at hhere
      rcases hhere with hstart | hend
      · exact Or.inl hstart
      · exact Or.inr (Or.inl hend)
    · cases hhere
  · exact Or.inr (Or.inr hlater)

/-- The text in front of a place that is read up to from the start of the source. -/
theorem consumed_of_reads (h : Reads ⟨1, 1⟩ source finish remaining) :
    source = consumed source remaining ++ remaining ∧ finish = advanceText ⟨1, 1⟩ (consumed source remaining) := by
  obtain ⟨text, htext, hfinish, -⟩ := h
  have hconsumed : consumed source remaining = text := by
    rw [consumed, htext, List.length_append, Nat.add_sub_cancel, List.take_left]
  rw [hconsumed]
  exact ⟨htext, hfinish⟩

/-- Where a token starts or ends, the scanner is at the position behind the text in front of it. -/
theorem tokenEdges_reads {rounds : List Round}
    (hrounds : lexRounds classes file position input = .ok rounds) (hsource : Reads ⟨1, 1⟩ source position input)
    (hedge : (finish, before) ∈ tokenEdges source input rounds) :
    ∃ after, source = before ++ after ∧ finish = advanceText ⟨1, 1⟩ before := by
  fun_induction lexRounds classes file position input generalizing rounds with
  | case1 position =>
      cases hrounds
      obtain ⟨htext, hposition⟩ := consumed_of_reads hsource
      rcases mem_tokenEdges_cons hedge with ⟨rfl, rfl⟩ | ⟨rfl, rfl⟩ | hlater
      · exact ⟨_, htext, hposition⟩
      · exact ⟨_, htext, hposition⟩
      · cases hlater
  | case2 => cases hrounds
  | case3 position character rest round hround ih =>
      obtain ⟨hstart, hreads⟩ := lexRound_reads hround
      have hend := hsource.trans hreads
      obtain ⟨later, hlater, hrest⟩ := Tala.Library.Codec.bind_eq_ok.mp hrounds
      cases hrest
      rcases mem_tokenEdges_cons hedge with ⟨rfl, rfl⟩ | ⟨rfl, rfl⟩ | hmore
      · obtain ⟨htext, hposition⟩ := consumed_of_reads hsource
        exact ⟨_, htext, by rw [hstart]; exact hposition⟩
      · obtain ⟨htext, hposition⟩ := consumed_of_reads hend
        exact ⟨_, htext, hposition⟩
      · exact ih hlater hend hmore

end Reading

/-! ## The editor's position of a token -/

section Positions

variable {before after : SourceText}

/-- The converter keeps the line, and counts the units of the line it finds there. -/
theorem toUtf16Position_advanceText (source before : SourceText) :
    toUtf16Position source (toProtocolPosition (advanceText ⟨1, 1⟩ before))
      = ⟨lineBreaks before,
          utf16Length ((lineAt source (lineBreaks before)).take (currentLine before).length)⟩ := by
  have hline : ∀ count : Nat, max 0 (((count + 1 : Nat) : Int) - 1) = (count : Int) := by omega
  rw [advanceText_start]
  simp only [toUtf16Position, toProtocolPosition, hline, utf16Column_eq]
  rw [max_eq_right (Int.natCast_nonneg _)]

/-- In front of a character without a lone carriage return before it, the two lines begin alike. -/
theorem take_lineAt (h : loneReturns before = 0) :
    (lineAt (before ++ after) (lineBreaks before)).take (currentLine before).length = currentLine before := by
  obtain ⟨more, tail, hsplit⟩ := drop_splitOn before after
  have hcount : lineBreaks before = before.count lineFeed := by rw [lineBreaks, h, Nat.add_zero]
  have hnat : (max 0 (before.count lineFeed : Int)).toNat = before.count lineFeed := by omega
  have hreturn : carriageReturn ∉ currentLine before := by
    intro hmem
    cases isLineBreak_of_mem_currentLine _ hmem
  rw [lineAt, hcount, hnat, hsplit, rtakeWhile_lineFeed h]
  exact take_rdropWhile hreturn

/-- Two names with a lone carriage return between them. -/
def twoLines : LexerInput := ⟨"sample.tala", ['a', carriageReturn, 'b']⟩

theorem sourceRounds_twoLines : sourceRounds asciiClasses twoLines = .ok
    [plainToken .identifierToken ⟨1, 1⟩ ['a'] [carriageReturn, 'b'], ⟨.blank, ⟨1, 2⟩, ⟨2, 1⟩, ['b']⟩,
      plainToken .identifierToken ⟨2, 1⟩ ['b'] [], ⟨.token .endOfFileToken [], ⟨2, 2⟩, ⟨2, 2⟩, []⟩] := by
  have hrounds : lexRounds asciiClasses "sample.tala" ⟨1, 1⟩ twoLines.lexerSourceText = .ok _ :=
    lexRounds_of_cons rfl (lexRounds_of_cons rfl (lexRounds_of_cons rfl lexRounds_nil))
  rw [sourceRounds, show lexRounds asciiClasses twoLines.lexerSourceFile ⟨1, 1⟩ twoLines.lexerSourceText = _
    from hrounds]
  rfl

end Positions

end Tala.Analyzer
