import Tala.Syntax.Source

/-!
# `Syntax.SourceText` — lossless structure of a source

Fragments keep their exact text: code, comments and literals, each with its span. The formatter and the
editor tools work on them; concatenated they are the source.
-/

namespace Tala.Syntax

inductive SourceFragmentKind
  | codeFragment | lineCommentFragment | longCommentFragment | stringLiteralFragment | characterLiteralFragment
  | rawStringLiteralFragment
  deriving DecidableEq, Repr

open SourceFragmentKind

/-- Exact text of a fragment and its half-open span. -/
structure SourceFragment where
  sourceFragmentKind : SourceFragmentKind
  sourceFragmentText : SourceText
  sourceFragmentSpan : SourceSpan
  deriving DecidableEq, Repr

/-- Concatenation of the fragments. -/
def reconstructSource (fragments : List SourceFragment) : SourceText :=
  fragments.flatMap SourceFragment.sourceFragmentText

namespace SourceText

/-! ## Units -/

/-- A line break or one character, what follows it, and the position after it. -/
def consumeSourceUnit (position : SourcePosition) (input : SourceText) :
    SourceText × SourceText × SourcePosition :=
  match splitLineBreak input with
  | some (lineBreak, remaining) => (lineBreak, remaining, position.nextLine)
  | none =>
      match input with
      | [] => ([], [], position)
      | character :: remaining => ([character], remaining, position.right 1)

theorem consumeSourceUnit_append (position : SourcePosition) (input : SourceText) :
    (consumeSourceUnit position input).1 ++ (consumeSourceUnit position input).2.1 = input := by
  unfold consumeSourceUnit
  split
  · next lineBreak remaining hsplit => exact (splitLineBreak_eq_some hsplit).1.symm
  · cases input <;> rfl

theorem consumeSourceUnit_shorter (position : SourcePosition) (character : Char) (rest : SourceText) :
    (consumeSourceUnit position (character :: rest)).2.1.length < (character :: rest).length := by
  have happend := congrArg List.length (consumeSourceUnit_append position (character :: rest))
  have hunit : (consumeSourceUnit position (character :: rest)).1 ≠ [] := by
    unfold consumeSourceUnit
    split
    · next lineBreak remaining hsplit => exact (splitLineBreak_eq_some hsplit).2.1
    · exact nofun
  have hpositive := List.length_pos_iff.mpr hunit
  rw [List.length_append] at happend
  omega

/-- The position after a text. -/
def advanceText (position : SourcePosition) (input : SourceText) : SourcePosition :=
  match input with
  | [] => position
  | character :: rest =>
      advanceText (consumeSourceUnit position (character :: rest)).2.2
        (consumeSourceUnit position (character :: rest)).2.1
termination_by input.length
decreasing_by exact consumeSourceUnit_shorter position character rest

/-! ## Protected text -/

section Scan

variable (file : String)

def diagnosticCodeFor : SourceFragmentKind → String
  | stringLiteralFragment => "TAL0101"
  | characterLiteralFragment => "TAL0102"
  | rawStringLiteralFragment => "TAL0103"
  | longCommentFragment => "TAL0104"
  | _ => "TAL0105"

def description : SourceFragmentKind → String
  | stringLiteralFragment => "string literal"
  | characterLiteralFragment => "character literal"
  | rawStringLiteralFragment => "raw string literal"
  | longCommentFragment => "long comment"
  | _ => "source fragment"

def unterminated (kind : SourceFragmentKind) (start finish : SourcePosition) : LexicalDiagnostic :=
  ⟨diagnosticCodeFor kind, ⟨file, start, finish⟩, "unterminated " ++ description kind⟩

/-- The level of a long bracket, its opener, and what follows. -/
def longBracketOpener : SourceText → Option (Nat × SourceText × SourceText)
  | [] => none
  | character :: remaining =>
      if character = '[' then
        let equals := remaining.takeWhile (· = '=')
        match remaining.dropWhile (· = '=') with
        | [] => none
        | bracket :: content =>
            if bracket = '[' then some (equals.length, '[' :: (equals ++ ['[']), content) else none
      else none

/-- Text up to the delimiter; a unit after a backslash does not close. `reversed` is the text so far. -/
def consumeQuoted (kind : SourceFragmentKind) (delimiter : Char) (start position : SourcePosition)
    (reversed input : SourceText) : Except LexicalDiagnostic (SourceText × SourcePosition × SourceText) :=
  match input with
  | [] => .error (unterminated file kind start position)
  | character :: remaining =>
      if character = delimiter then
        .ok ((delimiter :: reversed).reverse, advanceText position [delimiter], remaining)
      else if character = backslash then
        match remaining with
        | [] => .error (unterminated file kind start position)
        | next :: rest =>
            let slashEnd := advanceText position [backslash]
            let escaped := consumeSourceUnit slashEnd (next :: rest)
            consumeQuoted kind delimiter start escaped.2.2 (escaped.1.reverse ++ backslash :: reversed) escaped.2.1
      else
        let unit := consumeSourceUnit position (character :: remaining)
        consumeQuoted kind delimiter start unit.2.2 (unit.1.reverse ++ reversed) unit.2.1
termination_by input.length
decreasing_by
  · have := consumeSourceUnit_shorter (advanceText position [backslash]) next rest
    simp only [List.length_cons] at this ⊢
    omega
  · exact consumeSourceUnit_shorter position character remaining

def closer (level : Nat) : SourceText := ']' :: (List.replicate level '=' ++ [']'])

/-- Text up to the closer of a long bracket. -/
def consumeLong (kind : SourceFragmentKind) (start : SourcePosition) (level : Nat) (position : SourcePosition)
    (reversed input : SourceText) : Except LexicalDiagnostic (SourceText × SourcePosition × SourceText) :=
  match stripPrefix (closer level) input with
  | some remaining => .ok (reversed.reverse ++ closer level, advanceText position (closer level), remaining)
  | none =>
      match input with
      | [] => .error (unterminated file kind start position)
      | character :: rest =>
          let unit := consumeSourceUnit position (character :: rest)
          consumeLong kind start level unit.2.2 (unit.1.reverse ++ reversed) unit.2.1
termination_by input.length
decreasing_by exact consumeSourceUnit_shorter position character rest

/-! ## The scanner -/

/-- What the scanner finds in front of an input: a protected fragment, or one unit of code. -/
inductive Found
  | fragment (kind : SourceFragmentKind) (text : SourceText)
  | code (unit : SourceText)

/-- Text that was consumed, as a protected fragment. -/
def asFragment (kind : SourceFragmentKind) (consumed : SourceText × SourcePosition × SourceText) :
    Found × SourcePosition × SourceText :=
  (.fragment kind consumed.1, consumed.2)

/-- One round: what is found, where it ends, and what is left. -/
def scanOne (position : SourcePosition) (character : Char) (rest : SourceText) :
    Except LexicalDiagnostic (Found × SourcePosition × SourceText) :=
  match stripPrefix ['-', '-'] (character :: rest) with
  | some remaining =>
      match longBracketOpener remaining with
      | some (level, opener, content) =>
          let text := ['-', '-'] ++ opener
          (consumeLong file longCommentFragment position level (advanceText position text) text.reverse
            content).map (asFragment longCommentFragment)
      | none =>
          let text := ['-', '-'] ++ remaining.takeWhile fun character => !isLineBreak character
          .ok (asFragment lineCommentFragment (text, advanceText position text,
            remaining.dropWhile fun character => !isLineBreak character))
  | none =>
      match longBracketOpener (character :: rest) with
      | some (level, opener, content) =>
          (consumeLong file rawStringLiteralFragment position level (advanceText position opener)
            opener.reverse content).map (asFragment rawStringLiteralFragment)
      | none =>
          if character = doubleQuote then
            (consumeQuoted file stringLiteralFragment doubleQuote position
              (advanceText position [doubleQuote]) [doubleQuote] rest).map (asFragment stringLiteralFragment)
          else if character = apostrophe then
            (consumeQuoted file characterLiteralFragment apostrophe position
              (advanceText position [apostrophe]) [apostrophe] rest).map (asFragment characterLiteralFragment)
          else
            let unit := consumeSourceUnit position (character :: rest)
            .ok (.code unit.1, unit.2.2, unit.2.1)

/-! ### A round leaves less than it found -/

variable {file} {kind : SourceFragmentKind} {delimiter character : Char}
  {start position finish : SourcePosition} {level : Nat} {reversed input text remaining rest : SourceText}
  {found : Found}

theorem consumeQuoted_shorter
    (h : consumeQuoted file kind delimiter start position reversed input = .ok (text, finish, remaining)) :
    remaining.length < input.length := by
  fun_induction consumeQuoted file kind delimiter start position reversed input with
  | case1 => cases h
  | case2 =>
      cases h
      exact Nat.lt_succ_self _
  | case3 => cases h
  | case4 position reversed next rest slashEnd escaped hdelimiter ih =>
      have hunit : escaped.2.1.length < (next :: rest).length := consumeSourceUnit_shorter _ _ _
      have hrest := ih h
      simp only [List.length_cons] at hunit ⊢
      omega
  | case5 position reversed character rest hdelimiter hslash unit ih =>
      have hunit : unit.2.1.length < (character :: rest).length := consumeSourceUnit_shorter _ _ _
      have hrest := ih h
      omega

theorem consumeLong_shorter
    (h : consumeLong file kind start level position reversed input = .ok (text, finish, remaining)) :
    remaining.length < input.length := by
  fun_induction consumeLong file kind start level position reversed input with
  | case1 position reversed input rest hcloser =>
      cases h
      rw [stripPrefix_eq_some.mp hcloser, closer, List.length_append, List.length_cons]
      omega
  | case2 => cases h
  | case3 position reversed character rest unit hcloser ih =>
      have hunit : unit.2.1.length < (character :: rest).length := consumeSourceUnit_shorter _ _ _
      have hrest := ih h
      omega

theorem longBracketOpener_eq_some {opener : SourceText}
    (h : longBracketOpener input = some (level, opener, remaining)) :
    input = opener ++ remaining ∧ opener = '[' :: (List.replicate level '=' ++ ['[']) := by
  cases input with
  | nil => cases h
  | cons character rest =>
      rw [longBracketOpener] at h
      split at h
      · next hopen =>
          simp only at h
          split at h
          · cases h
          · next bracket content hcontent =>
              split at h
              · next hbracket =>
                  cases h
                  have hequals := takeWhile_eq_replicate '=' rest
                  have hsplit := List.takeWhile_append_dropWhile (p := (· = '=')) (l := rest)
                  refine ⟨?_, by rw [← hequals]⟩
                  conv_lhs => rw [hopen, ← hsplit, hcontent, hbracket]
                  simp
              · cases h
      · cases h

theorem map_asFragment_eq_ok {consumed : Except LexicalDiagnostic (SourceText × SourcePosition × SourceText)}
    (h : consumed.map (asFragment kind) = .ok (found, finish, remaining)) :
    ∃ text, consumed = .ok (text, finish, remaining) ∧ found = .fragment kind text := by
  cases consumed with
  | error issue => cases h
  | ok parts =>
      obtain ⟨text, finish', remaining'⟩ := parts
      cases h
      exact ⟨text, rfl, rfl⟩

theorem scanOne_shorter (h : scanOne file position character rest = .ok (found, finish, remaining)) :
    remaining.length < (character :: rest).length := by
  rw [scanOne] at h
  split at h
  · next after hdashes =>
      rw [stripPrefix_eq_some.mp hdashes]
      simp only [List.length_append, List.length_cons]
      split at h
      · next level opener content hopener =>
          obtain ⟨text, hlong, -⟩ := map_asFragment_eq_ok h
          rw [(longBracketOpener_eq_some hopener).1, List.length_append]
          have hshorter := consumeLong_shorter hlong
          omega
      · cases h
        have hbody := List.length_dropWhile_le (fun character => !isLineBreak character) after
        omega
  · split at h
    · next level opener content hopener =>
        obtain ⟨text, hlong, -⟩ := map_asFragment_eq_ok h
        rw [(longBracketOpener_eq_some hopener).1, List.length_append]
        have hshorter := consumeLong_shorter hlong
        omega
    · split at h
      · obtain ⟨text, hquoted, -⟩ := map_asFragment_eq_ok h
        exact Nat.lt_succ_of_lt (consumeQuoted_shorter hquoted)
      · split at h
        · obtain ⟨text, hquoted, -⟩ := map_asFragment_eq_ok h
          exact Nat.lt_succ_of_lt (consumeQuoted_shorter hquoted)
        · cases h
          exact consumeSourceUnit_shorter _ _ _

/-! ### The whole source -/

/-- Code that is not yet a fragment: where it starts, and its text reversed. -/
abbrev Pending := Option (SourcePosition × SourceText)

def appendPending (position : SourcePosition) (text : SourceText) : Pending → Pending
  | none => some (position, text.reverse)
  | some (start, reversed) => some (start, text.reverse ++ reversed)

variable (file)

def fragment (kind : SourceFragmentKind) (start finish : SourcePosition) (text : SourceText) : SourceFragment :=
  ⟨kind, text, ⟨file, start, finish⟩⟩

/-- Pending code becomes a fragment. -/
def flushPending (pending : Pending) (output : List SourceFragment) : List SourceFragment :=
  match pending with
  | none => output
  | some (start, reversed) =>
      fragment file codeFragment start (advanceText start reversed.reverse) reversed.reverse :: output

/-- Round after round; `output` is reversed. -/
def scanFrom (position : SourcePosition) (pending : Pending) (output : List SourceFragment)
    (input : SourceText) : Except LexicalDiagnostic (List SourceFragment) :=
  match input with
  | [] => .ok (flushPending file pending output).reverse
  | character :: rest =>
      match _h : scanOne file position character rest with
      | .error issue => .error issue
      | .ok (.fragment kind text, finish, remaining) =>
          scanFrom finish none (fragment file kind position finish text :: flushPending file pending output)
            remaining
      | .ok (.code unit, finish, remaining) =>
          scanFrom finish (appendPending position unit pending) output remaining
termination_by input.length
decreasing_by
  · exact scanOne_shorter _h
  · exact scanOne_shorter _h

end Scan

end SourceText

open SourceText

/-- Split a source without normalizing or decoding any character. -/
def scanSourceFragments (file : String) (source : SourceText) :
    Except (List LexicalDiagnostic) (List SourceFragment) :=
  match scanFrom file ⟨1, 1⟩ none [] source with
  | .error issue => .error [issue]
  | .ok fragments => .ok fragments

end Tala.Syntax
