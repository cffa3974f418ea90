import Tala.Syntax.Lexer
import Tala.Syntax.SourceTextFacts

/-!
# `Syntax.SourceAgreement` — the lexer and the lossless scanner read the same source

Where a round of the lexer consumes a comment, a string or a character, the scanner finds one fragment of the
same text; where it consumes anything else, the scanner finds code, unit by unit (`CodeRun`). One place is
different: the apostrophe between the digits of a number opens a character literal for the scanner.
-/

namespace Tala.Syntax

open SourceFragmentKind TokenKind SourceText
open Lexer hiding longBracketOpener longBracketOpener_eq_some

/-! ## The same delimiters -/

section Delimiters

variable {file : String} {kind : SourceFragmentKind} {character : Char} {start position finish : SourcePosition}
  {level openerWidth : Nat} {reversed input value text remaining rest : SourceText}

theorem longBracketOpener_lexer (input : SourceText) :
    Lexer.longBracketOpener input
      = (SourceText.longBracketOpener input).map fun found => (found.1, found.2.1.length, found.2.2) := by
  cases input with
  | nil => rfl
  | cons character rest =>
      rw [Lexer.longBracketOpener, SourceText.longBracketOpener]
      split
      · cases rest.dropWhile (· = '=') with
        | nil => rfl
        | cons bracket content =>
            simp only
            split
            · simp
            · rfl
      · rfl

theorem stripPrefix_closer_cons (hne : character ≠ ']') :
    stripPrefix (closer level) (character :: rest) = none := by
  rw [closer, stripPrefix, if_neg hne]

theorem advanceText_closer (level : Nat) (position : SourcePosition) :
    advanceText position (closer level) = position.right (level + 2) := by
  rw [advanceText_plain]
  · simp [closer]
  · intro character hmem
    simp only [closer, List.mem_cons, List.mem_append, List.mem_replicate, List.not_mem_nil, or_false] at hmem
    rcases hmem with rfl | ⟨-, rfl⟩ | rfl <;> rfl

theorem consumeLong_closer (h : stripPrefix (closer level) input = some remaining) :
    consumeLong file kind start level position reversed input
      = .ok (reversed.reverse ++ closer level, position.right (level + 2), remaining) := by
  unfold consumeLong
  rw [h, advanceText_closer]

/-- A unit that does not begin the closer is passed over. -/
theorem consumeLong_cons (hne : stripPrefix (closer level) (character :: rest) = none) :
    consumeLong file kind start level position reversed (character :: rest)
      = consumeLong file kind start level (consumeSourceUnit position (character :: rest)).2.2
          ((consumeSourceUnit position (character :: rest)).1.reverse ++ reversed)
          (consumeSourceUnit position (character :: rest)).2.1 := by
  rw [consumeLong, hne]

theorem consumeLineBreak_eq_some {next : SourcePosition}
    (h : consumeLineBreak position input = some (next, remaining)) :
    ∃ lineBreak, splitLineBreak input = some (lineBreak, remaining) ∧ next = position.nextLine := by
  obtain ⟨⟨lineBreak, rest⟩, hsplit, hnext⟩ := Option.map_eq_some_iff.mp h
  cases hnext
  exact ⟨lineBreak, hsplit, rfl⟩

theorem consumeLineBreak_eq_none (h : consumeLineBreak position (character :: rest) = none) :
    isLineBreak character = false :=
  splitLineBreak_eq_none.mp (Option.map_eq_none_iff.mp h)

/-! ## The same long brackets -/

/-- The rest of a long comment is what the scanner takes up to the closer. -/
theorem consumeLong_of_skipLongComment (kind : SourceFragmentKind) (start : SourcePosition)
    (h : skipLongComment file level position input = .ok (finish, remaining)) (reversed : SourceText) :
    ∃ text, consumeLong file kind start level position reversed input = .ok (text, finish, remaining) := by
  fun_induction skipLongComment file level position input generalizing reversed with
  | case1 position input rest hcloser =>
      cases h
      exact ⟨_, consumeLong_closer hcloser⟩
  | case2 => cases h
  | case3 position character rest next remaining' hbreak hcloser ih =>
      obtain ⟨lineBreak, hsplit, rfl⟩ := consumeLineBreak_eq_some hbreak
      rw [consumeLong_cons hcloser, consumeSourceUnit_lineBreak hsplit]
      exact ih h _
  | case4 position character rest hbreak hcloser ih =>
      rw [consumeLong_cons hcloser, consumeSourceUnit_character (consumeLineBreak_eq_none hbreak)]
      exact ih h _

/-! ## The same quotes -/

variable {delimiter : Char} {digits : SourceText}

/-- What `consumeQuoted` passes over as one unit: neither its delimiter nor a backslash. -/
theorem consumeQuoted_cons (hdelimiter : character ≠ delimiter) (hslash : character ≠ backslash) :
    consumeQuoted file kind delimiter start position reversed (character :: rest)
      = consumeQuoted file kind delimiter start (consumeSourceUnit position (character :: rest)).2.2
          ((consumeSourceUnit position (character :: rest)).1.reverse ++ reversed)
          (consumeSourceUnit position (character :: rest)).2.1 := by
  conv_lhs => unfold consumeQuoted
  rw [if_neg hdelimiter, if_neg hslash]

theorem consumeQuoted_delimiter (hplain : isLineBreak delimiter = false) :
    consumeQuoted file kind delimiter start position reversed (delimiter :: rest)
      = .ok ((delimiter :: reversed).reverse, position.right 1, rest) := by
  unfold consumeQuoted
  rw [if_pos rfl, advanceText_plain]
  · rfl
  · intro character hmem
    rw [List.mem_singleton.mp hmem]
    exact hplain

/-- An escape takes the backslash and the character after it. -/
theorem consumeQuoted_escape {escape : Char} (hdelimiter : backslash ≠ delimiter)
    (hplain : isLineBreak escape = false) :
    consumeQuoted file kind delimiter start position reversed (backslash :: escape :: rest)
      = consumeQuoted file kind delimiter start (position.right 2) (escape :: backslash :: reversed) rest := by
  have hslash : advanceText position [backslash] = position.right 1 := by
    rw [advanceText_plain]
    · rfl
    · intro character hmem
      rw [List.mem_singleton.mp hmem]
      rfl
  rw [consumeQuoted, if_neg hdelimiter, if_pos rfl]
  simp only
  rw [hslash, consumeSourceUnit_character hplain]
  rfl

/-- Characters without a meaning inside the quotes. -/
theorem consumeQuoted_plain (h : ∀ digit ∈ digits, digit ≠ delimiter ∧ digit ≠ backslash ∧ isLineBreak digit = false)
    (position : SourcePosition) (reversed : SourceText) :
    consumeQuoted file kind delimiter start position reversed (digits ++ rest)
      = consumeQuoted file kind delimiter start (position.right digits.length) (digits.reverse ++ reversed) rest := by
  induction digits generalizing position reversed with
  | nil => rfl
  | cons digit others ih =>
      obtain ⟨hdelimiter, hslash, hplain⟩ := h digit (by simp)
      rw [List.cons_append, consumeQuoted_cons hdelimiter hslash, consumeSourceUnit_character hplain]
      rw [ih fun other hother => h other (by simp [hother])]
      rw [SourcePosition.right_right, List.length_cons, Nat.add_comm 1, List.reverse_cons, List.append_assoc]
      simp

theorem isHexDigit_ordinary (h : isHexDigit character = true) :
    character ≠ doubleQuote ∧ character ≠ backslash ∧ isLineBreak character = false := by
  refine ⟨?_, ?_, ?_⟩
  · rintro rfl
    exact absurd h (by decide)
  · rintro rfl
    exact absurd h (by decide)
  · cases hbreak : isLineBreak character with
    | false => rfl
    | true =>
        simp only [isLineBreak, Bool.or_eq_true, decide_eq_true_eq] at hbreak
        rcases hbreak with rfl | rfl <;> exact absurd h (by decide)

/-- The rest of a string is what the scanner takes up to the closing quote. -/
theorem consumeQuoted_of_collectString (kind : SourceFragmentKind) (start : SourcePosition)
    (h : collectString file position input value = .ok (text, finish, remaining)) (reversed : SourceText) :
    ∃ text, consumeQuoted file kind doubleQuote start position reversed input = .ok (text, finish, remaining) := by
  fun_induction collectString file position input value generalizing reversed with
  | case1 => cases h
  | case2 position value remaining' =>
      cases h
      exact ⟨_, consumeQuoted_delimiter rfl⟩
  | case3 position value character rest hquote next remaining' hbreak ih =>
      obtain ⟨lineBreak, hsplit, rfl⟩ := consumeLineBreak_eq_some hbreak
      have hslash : character ≠ backslash := by
        rintro rfl
        rw [splitLineBreak_eq_none.mpr rfl] at hsplit
        cases hsplit
      rw [consumeQuoted_cons hquote hslash, consumeSourceUnit_lineBreak hsplit]
      exact ih h _
  | case4 => cases h
  | case5 position value rest decoded width after hescape hquote hbreak ih =>
      obtain ⟨escape, digits, rfl, rfl, hplain, hdigits⟩ := decodeEscape_eq_ok hescape
      rw [consumeQuoted_escape (by decide) hplain, consumeQuoted_plain fun digit hmem =>
        isHexDigit_ordinary (hdigits digit hmem), SourcePosition.right_right]
      rw [show 2 + digits.length = digits.length + 1 + 1 by omega]
      exact ih h _
  | case6 position value character rest hquote hbreak hslash ih =>
      rw [consumeQuoted_cons hquote hslash, consumeSourceUnit_character (consumeLineBreak_eq_none hbreak)]
      exact ih h _

theorem scanCharacterBody_cons {escaped : Bool} (hplain : isLineBreak character = false)
    (hopen : (character = apostrophe && !escaped) = false)
    (h : scanCharacterBody escaped (character :: rest) = .ok (text, remaining)) :
    ∃ text', text = character :: text' ∧
      scanCharacterBody (character = backslash && !escaped) rest = .ok (text', remaining) := by
  have hbreaks : (decide (character = lineFeed) || decide (character = carriageReturn)) = false := by
    rw [isLineBreak, Bool.or_comm] at hplain
    exact hplain
  rw [scanCharacterBody, if_neg (by rw [hbreaks]; exact Bool.false_ne_true),
    if_neg (by rw [hopen]; exact Bool.false_ne_true)] at h
  cases hbody : scanCharacterBody (character = backslash && !escaped) rest with
  | error issue =>
      rw [hbody] at h
      cases h
  | ok parts =>
      rw [hbody] at h
      cases h
      exact ⟨_, rfl, rfl⟩

theorem isLineBreak_of_scanCharacterBody {escaped : Bool}
    (h : scanCharacterBody escaped (character :: rest) = .ok (text, remaining)) :
    isLineBreak character = false := by
  rw [scanCharacterBody] at h
  split at h
  · cases h
  · next hbreak => rw [isLineBreak, Bool.or_comm]; simpa using hbreak

/-- A character literal is what the scanner takes up to the closing apostrophe. -/
theorem consumeQuoted_of_scanCharacterBody (kind : SourceFragmentKind) (start : SourcePosition) (position : SourcePosition) (reversed : SourceText)
    (h : scanCharacterBody false input = .ok (text, remaining)) :
    ∃ text', consumeQuoted file kind apostrophe start position reversed input
      = .ok (text', position.right text.length, remaining) := by
  -- an escape is two characters for the lexer and one step of the scanner
  induction hlength : input.length using Nat.strong_induction_on generalizing input text position reversed with
  | _ length ih =>
      cases input with
      | nil => cases h
      | cons character rest =>
          have hplain := isLineBreak_of_scanCharacterBody h
          by_cases hquote : character = apostrophe
          · subst hquote
            have hclosed : scanCharacterBody false (apostrophe :: rest) = .ok ([apostrophe], rest) := rfl
            rw [hclosed] at h
            cases h
            exact ⟨_, consumeQuoted_delimiter rfl⟩
          · obtain ⟨text', rfl, hbody⟩ := scanCharacterBody_cons hplain (by simp [hquote]) h
            by_cases hslash : character = backslash
            · subst hslash
              cases rest with
              | nil => cases hbody
              | cons escape others =>
                  have hescape := isLineBreak_of_scanCharacterBody hbody
                  obtain ⟨text'', rfl, hrest⟩ := scanCharacterBody_cons hescape (by simp) hbody
                  rw [consumeQuoted_escape (by decide) hescape]
                  rw [show (decide (escape = backslash) && !(decide (backslash = backslash) && !false)) = false by
                    simp] at hrest
                  obtain ⟨found, hfound⟩ := ih others.length
                    (by rw [← hlength, List.length_cons, List.length_cons]; omega) (position.right 2) _ hrest rfl
                  refine ⟨found, ?_⟩
                  rw [hfound, SourcePosition.right_right, List.length_cons, List.length_cons,
                    show 2 + text''.length = text''.length + 1 + 1 by omega]
            · rw [consumeQuoted_cons hquote hslash, consumeSourceUnit_character hplain]
              rw [show (decide (character = backslash) && !false) = false by simp [hslash]] at hbody
              obtain ⟨found, hfound⟩ := ih rest.length (by rw [← hlength]; simp) (position.right 1) _ hbody rfl
              refine ⟨found, ?_⟩
              rw [hfound, SourcePosition.right_right, List.length_cons, Nat.add_comm]

end Delimiters

/-! ## Rounds that consume a comment or a literal -/

/-- What is protected from changes of layout. -/
inductive ProtectedKind
  | comment | string | character
  deriving DecidableEq, Repr

def SourceFragmentKind.protects : SourceFragmentKind → Option ProtectedKind
  | codeFragment => none
  | lineCommentFragment => some .comment
  | longCommentFragment => some .comment
  | stringLiteralFragment => some .string
  | rawStringLiteralFragment => some .string
  | characterLiteralFragment => some .character

/-- What a round of the lexer consumes, as something protected. -/
def Lexer.Lexeme.protects : Lexeme → Option ProtectedKind
  | .comment => some .comment
  | .token stringToken _ => some .string
  | .token characterToken _ => some .character
  | _ => none

section ProtectedRounds

variable {classes : CharacterClasses} {file : String} {character : Char} {position : SourcePosition}
  {level openerWidth : Nat} {input text remaining rest content : SourceText} {round : Round}

/-- The scanner finds one fragment where the lexer made its round. -/
def FoundAs (file : String) (position : SourcePosition) (character : Char) (rest : SourceText) (round : Round)
    (protects : ProtectedKind) : Prop :=
  ∃ kind text, scanOne file position character rest
      = .ok (.fragment kind text, round.roundEnd, round.roundRemaining) ∧
    kind.protects = some protects ∧ round.roundStart = position ∧ round.roundLexeme.protects = some protects

/-- A long bracket opens for both. -/
theorem opener_of_lexer (h : Lexer.longBracketOpener input = some (level, openerWidth, content)) :
    ∃ opener, SourceText.longBracketOpener input = some (level, opener, content) ∧ opener.length = openerWidth ∧
      ∀ character ∈ opener, isLineBreak character = false := by
  rw [longBracketOpener_lexer] at h
  obtain ⟨⟨found, opener, after⟩, hopener, hparts⟩ := Option.map_eq_some_iff.mp h
  cases hparts
  refine ⟨opener, hopener, rfl, ?_⟩
  intro character hmem
  rw [(SourceText.longBracketOpener_eq_some hopener).2] at hmem
  simp only [List.mem_cons, List.mem_append, List.mem_replicate, List.not_mem_nil, or_false] at hmem
  rcases hmem with rfl | ⟨-, rfl⟩ | rfl <;> rfl

theorem opener_none_of_lexer (h : Lexer.longBracketOpener input = none) :
    SourceText.longBracketOpener input = none := by
  rw [longBracketOpener_lexer] at h
  exact Option.map_eq_none_iff.mp h

variable {kind : SourceFragmentKind} {text : SourceText}

/-- The scanner does not know documentation markers: it passes over them. -/
theorem consumeLong_marker {start : SourcePosition} {reversed : SourceText} :
    ∃ reversed', consumeLong file kind start level position reversed content
      = consumeLong file kind start level
          (position.right (content.length - (dropDocumentationMarker content).length)) reversed'
          (dropDocumentationMarker content) := by
  cases content with
  | nil => exact ⟨reversed, rfl⟩
  | cons marker after =>
      by_cases hmarker : (marker = '|' || marker = '!') = true
      · have hplain : isLineBreak marker = false ∧ marker ≠ ']' := by
          rw [Bool.or_eq_true, decide_eq_true_eq, decide_eq_true_eq] at hmarker
          rcases hmarker with rfl | rfl <;> decide
        have hdropped : dropDocumentationMarker (marker :: after) = after := if_pos hmarker
        refine ⟨[marker].reverse ++ reversed, ?_⟩
        rw [consumeLong_cons (stripPrefix_closer_cons hplain.2), consumeSourceUnit_character hplain.1, hdropped]
        simp
      · have hkept : dropDocumentationMarker (marker :: after) = marker :: after := if_neg hmarker
        rw [hkept, Nat.sub_self]
        exact ⟨reversed, rfl⟩

theorem dropDocumentationMarker_takeWhile (input : SourceText) :
    (input.length - (dropDocumentationMarker input).length)
        + ((dropDocumentationMarker input).takeWhile fun character => !isLineBreak character).length
      = (input.takeWhile fun character => !isLineBreak character).length ∧
    (dropDocumentationMarker input).dropWhile (fun character => !isLineBreak character)
      = input.dropWhile fun character => !isLineBreak character := by
  cases input with
  | nil => exact ⟨rfl, rfl⟩
  | cons marker after =>
      by_cases hmarker : (marker = '|' || marker = '!') = true
      · have hplain : (!isLineBreak marker) = true := by
          rw [Bool.or_eq_true, decide_eq_true_eq, decide_eq_true_eq] at hmarker
          rcases hmarker with rfl | rfl <;> rfl
        have hdropped : dropDocumentationMarker (marker :: after) = after := if_pos hmarker
        have htaken : (marker :: after).takeWhile (fun character => !isLineBreak character)
            = marker :: after.takeWhile (fun character => !isLineBreak character) :=
          List.takeWhile_cons_of_pos hplain
        have hrest : (marker :: after).dropWhile (fun character => !isLineBreak character)
            = after.dropWhile (fun character => !isLineBreak character) :=
          List.dropWhile_cons_of_pos hplain
        rw [hdropped, htaken, hrest]
        refine ⟨?_, rfl⟩
        simp only [List.length_cons]
        omega
      · have hkept : dropDocumentationMarker (marker :: after) = marker :: after := if_neg hmarker
        rw [hkept, Nat.sub_self, Nat.zero_add]
        exact ⟨rfl, rfl⟩

/-- The dashes and the opener of a comment are on one line. -/
theorem advanceText_dashes (h : ∀ character ∈ text, isLineBreak character = false) :
    advanceText position (['-', '-'] ++ text) = position.right (2 + text.length) := by
  rw [advanceText_plain, List.length_append]
  · rfl
  · intro character hmem
    simp only [List.mem_append, List.mem_cons, List.not_mem_nil, or_false] at hmem
    rcases hmem with (rfl | rfl) | hmem
    · rfl
    · rfl
    · exact h character hmem

theorem comment_found (hdashes : stripPrefix ['-', '-'] (character :: rest) = some input)
    (h : lexComment file position input = .ok round) :
    FoundAs file position character rest round .comment := by
  unfold lexComment at h
  split at h
  · next level openerWidth content hopener =>
      obtain ⟨opener, hfound, rfl, hplain⟩ := opener_of_lexer hopener
      obtain ⟨reversed, hmarker⟩ : ∃ reversed, consumeLong file longCommentFragment position level
          (position.right (2 + opener.length)) (['-', '-'] ++ opener).reverse content = _ := consumeLong_marker
      cases hskip : skipLongComment file level (position.right (2 + opener.length
          + (content.length - (dropDocumentationMarker content).length))) (dropDocumentationMarker content) with
      | error issue => simp [hskip, bind, Except.bind] at h
      | ok parts =>
          simp only [hskip, bind, Except.bind, Except.ok.injEq] at h
          obtain ⟨finish, remaining⟩ := parts
          obtain ⟨text, htext⟩ := consumeLong_of_skipLongComment longCommentFragment position hskip reversed
          refine ⟨longCommentFragment, text, ?_, rfl, by rw [← h], by rw [← h]; rfl⟩
          rw [scanOne_longComment hdashes hfound, advanceText_dashes hplain, hmarker, SourcePosition.right_right,
            htext, ← h]
          rfl
  · next hopener =>
      cases h
      obtain ⟨hwidth, hrest⟩ := dropDocumentationMarker_takeWhile input
      refine ⟨lineCommentFragment, ['-', '-'] ++ input.takeWhile fun character => !isLineBreak character,
        ?_, rfl, rfl, rfl⟩
      rw [scanOne_lineComment hdashes (opener_none_of_lexer hopener), advanceText_dashes, hrest, Nat.add_assoc, hwidth]
      intro character hmem
      simpa using List.mem_takeWhile_imp hmem

theorem rawString_found (hdashes : stripPrefix ['-', '-'] (character :: rest) = none)
    (hopener : Lexer.longBracketOpener (character :: rest) = some (level, openerWidth, content))
    (h : lexRawString file position level openerWidth content = .ok round) :
    FoundAs file position character rest round .string := by
  obtain ⟨opener, hfound, rfl, hplain⟩ := opener_of_lexer hopener
  unfold lexRawString at h
  -- a line break after the opener is dropped by the lexer, and passed over by the scanner
  have hbreak : ∃ reversed, consumeLong file rawStringLiteralFragment position level
      (position.right opener.length) opener.reverse content
        = consumeLong file rawStringLiteralFragment position level
            ((consumeLineBreak (position.right opener.length) content).getD
              (position.right opener.length, content)).1 reversed
            ((consumeLineBreak (position.right opener.length) content).getD
              (position.right opener.length, content)).2 := by
    cases hnext : consumeLineBreak (position.right opener.length) content with
    | none => exact ⟨_, rfl⟩
    | some next =>
        obtain ⟨next, remaining⟩ := next
        obtain ⟨lineBreak, hsplit, rfl⟩ := consumeLineBreak_eq_some hnext
        cases content with
        | nil => cases hsplit
        | cons first others =>
            have hfirst : first ≠ ']' := by
              rintro rfl
              rw [splitLineBreak_eq_none.mpr rfl] at hsplit
              cases hsplit
            rw [consumeLong_cons (stripPrefix_closer_cons hfirst), consumeSourceUnit_lineBreak hsplit]
            exact ⟨_, rfl⟩
  obtain ⟨reversed, hbreak⟩ := hbreak
  revert h hbreak
  generalize (consumeLineBreak (position.right opener.length) content).getD
    (position.right opener.length, content) = next
  intro h hbreak
  cases hraw : collectRaw file position level next.1 next.2 [] with
  | error issue => simp [hraw, bind, Except.bind] at h
  | ok parts =>
      simp only [hraw, bind, Except.bind, Except.ok.injEq] at h
      obtain ⟨value, finish, remaining⟩ := parts
      obtain ⟨text, htext⟩ := consumeLong_of_skipLongComment rawStringLiteralFragment position
        (skipLongComment_of_collectRaw hraw) reversed
      refine ⟨rawStringLiteralFragment, text, ?_, rfl, by rw [← h], by rw [← h]; rfl⟩
      rw [scanOne_rawString hdashes hfound, advanceText_plain hplain, hbreak, htext, ← h]
      rfl

theorem advanceText_single (hplain : isLineBreak character = false) :
    advanceText position [character] = position.right 1 := by
  rw [advanceText_plain]
  · rfl
  · intro other hmem
    rw [List.mem_singleton.mp hmem]
    exact hplain

theorem string_found (h : lexString file position rest = .ok round) :
    FoundAs file position doubleQuote rest round .string := by
  unfold lexString at h
  cases hstring : collectString file (position.right 1) rest [] with
  | error issue => simp [hstring, bind, Except.bind] at h
  | ok parts =>
      simp only [hstring, bind, Except.bind, Except.ok.injEq] at h
      obtain ⟨value, finish, remaining⟩ := parts
      obtain ⟨text, htext⟩ := consumeQuoted_of_collectString stringLiteralFragment position hstring [doubleQuote]
      refine ⟨stringLiteralFragment, text, ?_, rfl, by rw [← h], by rw [← h]; rfl⟩
      rw [scanOne_string, advanceText_single rfl, htext, ← h]
      rfl

theorem character_found (h : lexCharacter file position (apostrophe :: rest) = .ok round) :
    FoundAs file position apostrophe rest round .character := by
  unfold lexCharacter at h
  split at h
  · cases h
  · next text remaining hliteral =>
      cases h
      obtain ⟨body, hinput, rfl, hbody⟩ := scanCharacterLiteral_eq_ok hliteral
      have hrest : rest = body ++ remaining := (List.cons.inj hinput).2
      rw [← hrest] at hbody
      obtain ⟨found, hfound⟩ := consumeQuoted_of_scanCharacterBody characterLiteralFragment position
        (position.right 1) [apostrophe] hbody
      refine ⟨characterLiteralFragment, found, ?_, rfl, rfl, rfl⟩
      rw [scanOne_character, advanceText_single rfl, hfound, SourcePosition.right_right]
      simp only [plainToken, List.length_cons]
      rw [Nat.add_comm]
      rfl

end ProtectedRounds

/-! ## Rounds that consume code -/

/-- The scanner reads the text in front of an input as code, unit by unit. -/
inductive CodeRun (file : String) : SourcePosition → SourceText → SourcePosition → SourceText → Prop
  | done {position input} : CodeRun file position input position input
  | unit {position character rest finish remaining} :
      scanOne file position character rest = .ok (.code (consumeSourceUnit position (character :: rest)).1,
        (consumeSourceUnit position (character :: rest)).2.2, (consumeSourceUnit position (character :: rest)).2.1) →
      CodeRun file (consumeSourceUnit position (character :: rest)).2.2
        (consumeSourceUnit position (character :: rest)).2.1 finish remaining →
      CodeRun file position (character :: rest) finish remaining

section CodeRounds

variable {classes : CharacterClasses} {file : String} {character : Char} {position : SourcePosition}
  {input text remaining rest : SourceText} {round : Round}

/-- A character that opens nothing for the scanner, wherever it stands. -/
def Ordinary (character : Char) : Prop :=
  character ≠ '-' ∧ character ≠ '[' ∧ character ≠ doubleQuote ∧ character ≠ apostrophe ∧
    isLineBreak character = false

theorem Ordinary.opens_nothing (h : Ordinary character) :
    stripPrefix ['-', '-'] (character :: rest) = none ∧
      SourceText.longBracketOpener (character :: rest) = none := by
  obtain ⟨hdash, hbracket, -⟩ := h
  exact ⟨if_neg hdash, if_neg hbracket⟩

/-- Text that opens nothing: none of its characters is a quote or a line break, and what could open a comment
or a long bracket does not, with what follows. -/
def OpensNothing : SourceText → SourceText → Prop
  | [], _ => True
  | character :: rest, remaining =>
      (stripPrefix ['-', '-'] (character :: (rest ++ remaining)) = none ∧
        SourceText.longBracketOpener (character :: (rest ++ remaining)) = none ∧ character ≠ doubleQuote ∧
        character ≠ apostrophe ∧ isLineBreak character = false) ∧ OpensNothing rest remaining

theorem codeRun_of_opensNothing (h : OpensNothing text remaining) :
    CodeRun file position (text ++ remaining) (position.right text.length) remaining := by
  induction text generalizing position with
  | nil => exact .done
  | cons character rest ih =>
      obtain ⟨⟨hdashes, hopener, hquote, hapostrophe, hplain⟩, hrest⟩ := h
      rw [List.cons_append]
      apply CodeRun.unit
      · exact scanOne_code hdashes hopener hquote hapostrophe
      · rw [consumeSourceUnit_character hplain, List.length_cons, Nat.add_comm, ← SourcePosition.right_right]
        exact ih hrest

theorem opensNothing_of_ordinary (h : ∀ character ∈ text, Ordinary character) : OpensNothing text remaining := by
  induction text with
  | nil => trivial
  | cons character rest ih =>
      have hcharacter := h character (by simp)
      obtain ⟨hdashes, hopener⟩ := @Ordinary.opens_nothing character (rest ++ remaining) hcharacter
      exact ⟨⟨hdashes, hopener, hcharacter.2.2⟩, ih fun other hother => h other (by simp [hother])⟩

theorem toNat_lt_of_special (h : ¬ Ordinary character) : character.toNat < 128 ∧ character.isAlphanum = false := by
  by_contra hspecial
  apply h
  refine ⟨?_, ?_, ?_, ?_, ?_⟩
  · rintro rfl
    exact hspecial (by decide)
  · rintro rfl
    exact hspecial (by decide)
  · rintro rfl
    exact hspecial (by decide)
  · rintro rfl
    exact hspecial (by decide)
  · cases hbreak : isLineBreak character with
    | false => rfl
    | true =>
        simp only [isLineBreak, Bool.or_eq_true, decide_eq_true_eq] at hbreak
        rcases hbreak with rfl | rfl <;> exact absurd (by decide) hspecial

/-- Letters and digits of any script open nothing. -/
theorem ordinary_of_isAlphaNum (h : classes.isAlphaNum character = true) : Ordinary character := by
  by_contra hspecial
  obtain ⟨hascii, hother⟩ := toNat_lt_of_special hspecial
  rw [classes.isAlphaNum_ascii character hascii, hother] at h
  cases h

theorem ordinary_of_isNameCharacter (h : isNameCharacter classes character = true) : Ordinary character := by
  rw [isNameCharacter, Bool.or_eq_true, decide_eq_true_eq] at h
  rcases h with h | rfl
  · exact ordinary_of_isAlphaNum h
  · exact ⟨by decide, by decide, by decide, by decide, by decide⟩

/-- A name is code. -/
theorem name_codeRun (hname : (classes.isAlpha character || character = '_') = true) :
    CodeRun file position (character :: rest) (lexName classes position character rest).roundEnd
      (lexName classes position character rest).roundRemaining := by
  have hfirst : Ordinary character := by
    rw [Bool.or_eq_true, decide_eq_true_eq] at hname
    rcases hname with h | rfl
    · by_contra hspecial
      obtain ⟨hascii, hother⟩ := toNat_lt_of_special hspecial
      rw [classes.isAlpha_ascii character hascii] at h
      rw [Char.isAlphanum, h] at hother
      cases hother
    · exact ⟨by decide, by decide, by decide, by decide, by decide⟩
  have htext : ∀ other ∈ character :: rest.takeWhile (isNameCharacter classes), Ordinary other := by
    intro other hmem
    rcases List.mem_cons.mp hmem with rfl | hmem
    · exact hfirst
    · exact ordinary_of_isNameCharacter (List.mem_takeWhile_imp hmem)
  have hopens : OpensNothing (character :: rest.takeWhile (isNameCharacter classes))
      (rest.dropWhile (isNameCharacter classes)) := opensNothing_of_ordinary htext
  have hrun : CodeRun file position _ _ _ := codeRun_of_opensNothing hopens
  rw [List.cons_append, List.takeWhile_append_dropWhile] at hrun
  exact hrun

/-- A symbol is code: only its first character could open something, and it did not for the lexer. -/
theorem symbol_codeRun (hdashes : stripPrefix ['-', '-'] (character :: rest) = none)
    (hopener : SourceText.longBracketOpener (character :: rest) = none) (hquote : character ≠ doubleQuote)
    (hapostrophe : character ≠ apostrophe) (hplain : isLineBreak character = false)
    (h : lexSymbol classes file position character (character :: rest) = .ok round) :
    CodeRun file position (character :: rest) round.roundEnd round.roundRemaining := by
  unfold lexSymbol at h
  split at h
  · next symbol hsymbol =>
      cases h
      obtain ⟨hmem, hinput⟩ := longestSymbol_eq_some hsymbol
      have htails : symbols.all (fun symbol => !symbol.isEmpty && symbol.tail.all fun character =>
          character ≠ '-' && character ≠ '[' && character ≠ doubleQuote && character ≠ apostrophe
            && !isLineBreak character) = true := rfl
      have htail := List.all_eq_true.mp htails _ hmem
      cases symbol with
      | nil => cases htail
      | cons first others =>
          have hfirst : character = first := (List.cons.inj hinput).1
          subst hfirst
          simp only [List.isEmpty_cons, Bool.not_false, Bool.true_and, List.tail_cons, List.all_eq_true,
            Bool.and_eq_true, decide_eq_true_eq, Bool.not_eq_true'] at htail
          have hothers : ∀ other ∈ others, Ordinary other := fun other hother =>
            have hspecial := htail other hother
            ⟨hspecial.1.1.1.1, hspecial.1.1.1.2, hspecial.1.1.2, hspecial.1.2, hspecial.2⟩
          have hrest : rest = others ++ (character :: rest).drop (character :: others).length :=
            (List.cons.inj hinput).2
          have hopens : OpensNothing (character :: others)
              ((character :: rest).drop (character :: others).length) :=
            ⟨⟨by rw [← hrest]; exact hdashes, by rw [← hrest]; exact hopener, hquote, hapostrophe, hplain⟩,
              opensNothing_of_ordinary hothers⟩
          have hrun : CodeRun file position _ _ _ := codeRun_of_opensNothing hopens
          rw [← hinput] at hrun
          exact hrun
  · cases h

/-! ### Numbers -/

theorem candidate_ordinary {afterExponent : Bool} :
    ∀ other ∈ (scanNumericCandidate.go classes afterExponent input).1,
      Ordinary other ∨ other = apostrophe ∨ other = '-' := by
  have hmark : ∀ other, classes.isAlphaNum other || [apostrophe, '_', '.'].contains other →
      Ordinary other ∨ other = apostrophe ∨ other = '-' := by
    intro other hother
    simp only [Bool.or_eq_true, List.contains_iff_mem, List.mem_cons, List.not_mem_nil, or_false] at hother
    rcases hother with halnum | rfl | rfl | rfl
    · exact Or.inl (ordinary_of_isAlphaNum halnum)
    · exact Or.inr (Or.inl rfl)
    · exact Or.inl ⟨by decide, by decide, by decide, by decide, by decide⟩
    · exact Or.inl ⟨by decide, by decide, by decide, by decide, by decide⟩
  fun_induction scanNumericCandidate.go classes afterExponent input with
  | case1 =>
      intro other hmem
      cases hmem
  | case2 afterExponent character remaining hcharacter text rest hgo ih =>
      rw [hgo] at ih
      intro other hmem
      rcases List.mem_cons.mp hmem with rfl | hmem
      · exact hmark _ hcharacter
      · exact ih other hmem
  | case3 afterExponent character remaining hcharacter hsign text rest hgo ih =>
      rw [hgo] at ih
      intro other hmem
      rcases List.mem_cons.mp hmem with rfl | hmem
      · simp only [Bool.and_eq_true, List.contains_iff_mem, List.mem_cons, List.not_mem_nil, or_false] at hsign
        rcases hsign.2 with rfl | rfl
        · exact Or.inl ⟨by decide, by decide, by decide, by decide, by decide⟩
        · exact Or.inr (Or.inr rfl)
      · exact ih other hmem
  | case4 =>
      intro other hmem
      cases hmem

/-- A sign is followed by a character of the number that is no second one. -/
def SignsLead (text : SourceText) : Prop :=
  ∀ before after, text = before ++ '-' :: after → ∃ next later, after = next :: later ∧ next ≠ '-'

theorem areDigits_iff : areDigits text = true ↔ text ≠ [] ∧ ∀ digit ∈ text, digit.isDigit = true := by
  cases text <;> simp [areDigits]

variable {radix : IntegerRadix} {parsed : ParsedInteger}

/-- The digits of an integer have no sign among them. -/
theorem validateDigits_eq_ok (h : validateDigits classes radix text = .ok ()) : '-' ∉ text := by
  induction text with
  | nil => exact List.not_mem_nil
  | cons character rest ih =>
      rw [validateDigits] at h
      intro hmem
      split at h
      · next hseparator =>
          rcases List.mem_cons.mp hmem with hdash | hmem
          · rw [hseparator] at hdash
            exact absurd hdash (by decide)
          · exact ih h hmem
      · split at h
        · next hdigit =>
            rcases List.mem_cons.mp hmem with rfl | hmem
            · cases radix <;> exact absurd hdigit (by decide)
            · exact ih h hmem
        · split at h
          · cases h
          · cases h

theorem parseDigits_eq_ok (h : parseDigits classes radix text = .ok parsed) : '-' ∉ text := by
  unfold parseDigits at h
  split at h
  · cases h
  · split at h
    · cases h
    · split at h
      · cases h
      · split at h
        · cases h
        · cases hneighbors : validateSeparatorNeighbors radix text with
          | error issue => simp [hneighbors, bind, Except.bind] at h
          | ok _ =>
              cases hdigits : validateDigits classes radix text with
              | error issue => simp [hneighbors, hdigits, bind, Except.bind] at h
              | ok _ => exact validateDigits_eq_ok hdigits

theorem parseIntegerSpelling_eq_ok (h : parseIntegerSpelling classes text = .ok parsed) : '-' ∉ text := by
  have hradix : ∀ {lower upper : Char}, hasPrefix lower upper text = true → '-' ∉ ['0', lower] →
      '-' ∉ ['0', upper] → '-' ∉ text.drop 2 → '-' ∉ text := by
    intro lower upper hstart hlower hupper hdrop hmem
    rw [← List.take_append_drop 2 text] at hmem
    rcases List.mem_append.mp hmem with hmem | hmem
    · simp only [hasPrefix, Bool.or_eq_true, decide_eq_true_eq] at hstart
      rcases hstart with hstart | hstart
      · exact hlower (hstart ▸ hmem)
      · exact hupper (hstart ▸ hmem)
    · exact hdrop hmem
  unfold parseIntegerSpelling at h
  split at h
  · cases h
  · split at h
    · next hstart => exact hradix hstart (by decide) (by decide) (parseDigits_eq_ok h)
    · split at h
      · next hstart => exact hradix hstart (by decide) (by decide) (parseDigits_eq_ok h)
      · exact parseDigits_eq_ok h

theorem dash_notMem_digits {digits : SourceText} (h : areDigits digits = true) : '-' ∉ digits := by
  intro hmem
  exact absurd ((areDigits_iff.mp h).2 _ hmem) (by decide)

theorem validateMantissa_eq_ok (h : validateMantissa text = .ok ()) : '-' ∉ text := by
  unfold validateMantissa at h
  split at h
  · cases h
  · next hinteger =>
      rw [Bool.not_eq_true, Bool.not_eq_false'] at hinteger
      intro hmem
      rw [← List.takeWhile_append_dropWhile (p := (· ≠ '.')) (l := text)] at hmem
      rcases List.mem_append.mp hmem with hmem | hmem
      · exact dash_notMem_digits hinteger hmem
      · split at h
        · next hnone =>
            rw [hnone] at hmem
            cases hmem
        · next point fractionPart hpoint =>
            rw [hpoint] at hmem
            split at h
            · next hfraction =>
                rcases List.mem_cons.mp hmem with hdash | hmem
                · have hhead := List.head?_dropWhile_not (· ≠ '.') text
                  rw [hpoint] at hhead
                  simp only [List.head?_cons] at hhead
                  rw [← hdash] at hhead
                  exact absurd hhead (by decide)
                · exact dash_notMem_digits hfraction hmem
            · cases h

/-- Digits and points before the exponent; after its marker at most one sign, and digits. -/
theorem validateStructure_eq_ok (h : validateStructure text = .ok ()) :
    SignsLead (normalizeFloatingSpelling text) := by
  unfold validateStructure at h
  simp only at h
  generalize normalizeFloatingSpelling text = normalized at h ⊢
  cases hmantissa : validateMantissa (normalized.takeWhile fun character => !isExponentMarker character) with
  | error issue => simp [hmantissa, bind, Except.bind] at h
  | ok _ =>
      simp only [hmantissa, bind, Except.bind] at h
      have hbefore := validateMantissa_eq_ok hmantissa
      have hsplit := List.takeWhile_append_dropWhile (p := fun character => !isExponentMarker character)
        (l := normalized)
      have hhead := List.head?_dropWhile_not (fun character => !isExponentMarker character) normalized
      intro before after hdash
      generalize normalized.takeWhile (fun character => !isExponentMarker character) = mantissa at *
      generalize normalized.dropWhile (fun character => !isExponentMarker character) = exponent at *
      have hmem : '-' ∈ mantissa ++ exponent := by
        rw [hsplit, hdash]
        simp
      cases exponent with
      | nil =>
          rw [List.append_nil] at hmem
          exact absurd hmem hbefore
      | cons marker remaining =>
          have hmarker : marker ≠ '-' := by
            rintro rfl
            simp only [List.head?_cons] at hhead
            exact absurd hhead (by decide)
          have hlead : '-' ∉ mantissa ++ [marker] := by
            intro hmem
            rcases List.mem_append.mp hmem with hmem | hmem
            · exact hbefore hmem
            · exact hmarker (List.mem_singleton.mp hmem).symm
          have hsign : ∀ digits, areDigits digits = true → remaining = '-' :: digits →
              ∃ next later, after = next :: later ∧ next ≠ '-' := by
            intro digits hdigits hremaining
            have hparts : (mantissa ++ [marker]) ++ '-' :: digits = before ++ '-' :: after := by
              rw [← hdash, ← hsplit, hremaining, List.append_assoc]
              rfl
            obtain ⟨-, -, rfl⟩ :=
              (List.append_cons_inj_of_notMem hlead (dash_notMem_digits hdigits)).mp hparts
            obtain ⟨hnonempty, hall⟩ := areDigits_iff.mp hdigits
            cases digits with
            | nil => exact absurd rfl hnonempty
            | cons digit others =>
                refine ⟨digit, others, rfl, ?_⟩
                rintro rfl
                exact absurd (hall '-' (by simp)) (by decide)
          have hunsigned : '-' ∉ remaining → ∃ next later, after = next :: later ∧ next ≠ '-' := by
            intro hremaining
            rw [List.append_cons] at hmem
            rcases List.mem_append.mp hmem with hmem | hmem
            · exact absurd hmem hlead
            · exact absurd hmem hremaining
          rw [validateExponent] at h
          split at h
          · next hfirst =>
              split at h
              · next hdigits =>
                  cases remaining with
                  | nil => exact absurd hfirst (by simp)
                  | cons first others =>
                      simp only [List.head?_cons, Option.some.injEq] at hfirst
                      rcases hfirst with rfl | rfl
                      · apply hunsigned
                        intro hmem
                        rcases List.mem_cons.mp hmem with hplus | hmem
                        · exact absurd hplus (by decide)
                        · exact dash_notMem_digits hdigits hmem
                      · exact hsign others hdigits rfl
              · cases h
          · split at h
            · next hdigits => exact hunsigned (dash_notMem_digits hdigits)
            · cases h

/-- Separators apart, the signs of a number lead. -/
theorem signsLead_of_normalize (h : SignsLead (normalizeFloatingSpelling text)) : SignsLead text := by
  intro before after htext
  obtain ⟨next, later, hnext, hdash⟩ := h (normalizeFloatingSpelling before) (normalizeFloatingSpelling after) (by
    rw [htext]
    simp only [normalizeFloatingSpelling, List.filter_append]
    rw [List.filter_cons_of_pos (by decide)])
  cases after with
  | nil => cases hnext
  | cons first others =>
      refine ⟨first, others, rfl, ?_⟩
      rintro rfl
      rw [normalizeFloatingSpelling, List.filter_cons_of_pos (by decide)] at hnext
      exact hdash (List.cons.inj hnext).1.symm

theorem validateFloatingSpelling_eq_ok {normalized : SourceText}
    (h : validateFloatingSpelling classes text = .ok normalized) : SignsLead text := by
  unfold validateFloatingSpelling at h
  cases hcharacters : validateCharacters classes text with
  | error issue => simp [hcharacters, bind, Except.bind] at h
  | ok _ =>
      cases hcounts : validateCounts text with
      | error issue => simp [hcharacters, hcounts, bind, Except.bind] at h
      | ok _ =>
          cases hseparators : validateSeparators false text with
          | error issue => simp [hcharacters, hcounts, hseparators, bind, Except.bind] at h
          | ok _ =>
              cases hstructure : validateStructure text with
              | error issue => simp [hcharacters, hcounts, hseparators, hstructure, bind, Except.bind] at h
              | ok _ => exact signsLead_of_normalize (validateStructure_eq_ok hstructure)

/-- Signs that lead, and no apostrophe: the number opens nothing. -/
theorem opensNothing_number {more : SourceText} (hordinary : ∀ other ∈ text, Ordinary other ∨ other = '-')
    (hsigns : ∀ before after, text = before ++ '-' :: after → (after ++ more).head? ≠ some '-') :
    OpensNothing text more := by
  induction text with
  | nil => trivial
  | cons character rest ih =>
      refine ⟨?_, ih (fun other hother => hordinary other (by simp [hother])) ?_⟩
      · rcases hordinary character (by simp) with hcharacter | rfl
        · obtain ⟨hdashes, hopener⟩ := @Ordinary.opens_nothing character (rest ++ more) hcharacter
          exact ⟨hdashes, hopener, hcharacter.2.2⟩
        · refine ⟨?_, rfl, by decide, by decide, rfl⟩
          have hnext := hsigns [] rest rfl
          cases hafter : rest ++ more with
          | nil => rfl
          | cons next others =>
              rw [hafter] at hnext
              rw [stripPrefix, if_pos rfl, stripPrefix, if_neg]
              intro hdash
              exact hnext (congrArg some hdash)
      · intro before after hrest
        exact hsigns (character :: before) after (by rw [hrest]; rfl)

/-- The parts of a round that consumes a number. -/
theorem number_parts (h : lexNumber classes file position input = .ok round) :
    ∃ kind, round = plainToken kind position (scanNumericCandidate classes input).1
        (scanNumericCandidate classes input).2 ∧ (kind = integerToken ∨ kind = floatingToken) ∧
      SignsLead (scanNumericCandidate classes input).1 := by
  unfold lexNumber at h
  simp only at h
  split at h
  · split at h
    · cases h
    · next hfloating =>
        cases h
        exact ⟨floatingToken, rfl, Or.inr rfl, validateFloatingSpelling_eq_ok hfloating⟩
  · split at h
    · cases h
    · next hinteger =>
        cases h
        refine ⟨integerToken, rfl, Or.inl rfl, ?_⟩
        intro before after htext
        have hmem := parseIntegerSpelling_eq_ok hinteger
        rw [htext] at hmem
        exact absurd (by simp) hmem

/-- A number with an apostrophe between its digits. -/
def Lexer.Lexeme.hasSeparator : Lexeme → Bool
  | .token integerToken text => text.contains apostrophe
  | .token floatingToken text => text.contains apostrophe
  | _ => false

/-- The scanner reads code up to the first apostrophe of a number, which comes after its first digit. -/
def CutAtSeparator (file : String) (position : SourcePosition) (input : SourceText) (round : Round) : Prop :=
  ∃ width after, CodeRun file position input (position.right width) (apostrophe :: after) ∧ 0 < width ∧
    ∃ more, 0 < more ∧ round.roundEnd = position.right (width + more)

/-- What the scanner does with a round that consumes code. -/
structure ReadAsCode (file : String) (position : SourcePosition) (input : SourceText) (round : Round) : Prop where
  start : round.roundStart = position
  unprotected : round.roundLexeme.protects = none
  whole : round.roundLexeme.hasSeparator = false →
    CodeRun file position input round.roundEnd round.roundRemaining
  cut : round.roundLexeme.hasSeparator = true → CutAtSeparator file position input round

theorem number_readAsCode (hdigit : character.isDigit = true)
    (h : lexNumber classes file position (character :: rest) = .ok round) :
    ReadAsCode file position (character :: rest) round := by
  obtain ⟨kind, rfl, hkind, hsigns⟩ := number_parts h
  have hordinary := @candidate_ordinary classes (character :: rest) false
  have hinput := scanNumericCandidate_append classes (character :: rest)
  obtain ⟨others, hfirst⟩ : ∃ text, (scanNumericCandidate classes (character :: rest)).1 = character :: text :=
    scanNumericCandidate_cons hdigit
  have hseparator : (Lexeme.token kind (scanNumericCandidate classes (character :: rest)).1).hasSeparator
      = (scanNumericCandidate classes (character :: rest)).1.contains apostrophe := by
    rcases hkind with rfl | rfl <;> rfl
  change ∀ other ∈ (scanNumericCandidate classes (character :: rest)).1, _ at hordinary
  generalize (scanNumericCandidate classes (character :: rest)).1 = text at *
  generalize (scanNumericCandidate classes (character :: rest)).2 = remaining at *
  refine ⟨rfl, by rcases hkind with rfl | rfl <;> rfl, ?_, ?_⟩
  · intro hnone
    rw [show (plainToken kind position text remaining).roundLexeme = .token kind text from rfl, hseparator] at hnone
    have hopens : OpensNothing text remaining := by
      apply opensNothing_number
      · intro other hmem
        rcases hordinary other hmem with hother | rfl | hdash
        · exact Or.inl hother
        · rw [← List.contains_iff_mem, hnone] at hmem
          cases hmem
        · exact Or.inr hdash
      · intro before after htext
        obtain ⟨next, later, rfl, hnext⟩ := hsigns before after htext
        exact fun hhead => hnext (Option.some.inj hhead)
    rw [← hinput]
    exact codeRun_of_opensNothing hopens
  · intro hsome
    rw [show (plainToken kind position text remaining).roundLexeme = .token kind text from rfl, hseparator] at hsome
    -- the text in front of the first apostrophe
    obtain ⟨lead, after, htext, hlead⟩ := List.eq_append_cons_of_mem (List.contains_iff_mem.mp hsome)
    have hopens : OpensNothing lead (apostrophe :: (after ++ remaining)) := by
      apply opensNothing_number
      · intro other hmem
        rcases hordinary other (by rw [htext]; simp [hmem]) with hother | rfl | hdash
        · exact Or.inl hother
        · exact absurd hmem hlead
        · exact Or.inr hdash
      · intro before later hsplit
        obtain ⟨next, _, hlater, hnext⟩ := hsigns before (later ++ apostrophe :: after) (by
          rw [htext, hsplit, List.append_assoc]
          rfl)
        cases later with
        | nil => exact fun hhead => absurd (Option.some.inj hhead) (by decide)
        | cons first _ =>
            cases hlater
            exact fun hhead => hnext (Option.some.inj hhead)
    refine ⟨lead.length, after ++ remaining, ?_, ?_, after.length + 1, Nat.succ_pos _, ?_⟩
    · rw [← hinput, htext, List.append_assoc]
      exact codeRun_of_opensNothing hopens
    · cases lead with
      | nil =>
          rw [htext] at hfirst
          have hcharacter : apostrophe = character := (List.cons.inj hfirst).1
          rw [← hcharacter] at hdigit
          exact absurd hdigit (by decide)
      | cons _ _ => exact Nat.succ_pos _
    · show position.right text.length = _
      rw [htext, List.length_append, List.length_cons]

theorem readAsCode_of_codeRun (hstart : round.roundStart = position) (hprotects : round.roundLexeme.protects = none)
    (hseparator : round.roundLexeme.hasSeparator = false)
    (hrun : CodeRun file position input round.roundEnd round.roundRemaining) :
    ReadAsCode file position input round where
  start := hstart
  unprotected := hprotects
  whole _ := hrun
  cut h := by
    rw [hseparator] at h
    cases h

/-- One unit that is neither a quote nor the start of something longer is code. -/
theorem codeRun_unit (hdashes : stripPrefix ['-', '-'] (character :: rest) = none)
    (hopener : SourceText.longBracketOpener (character :: rest) = none) (hquote : character ≠ doubleQuote)
    (hapostrophe : character ≠ apostrophe) :
    CodeRun file position (character :: rest) (consumeSourceUnit position (character :: rest)).2.2
      (consumeSourceUnit position (character :: rest)).2.1 :=
  .unit (scanOne_code hdashes hopener hquote hapostrophe) .done

/-- **A round of the lexer, for the scanner**: one fragment, or code. -/
theorem round_read (h : lexRound classes file position character rest = .ok round) :
    (∃ protects, FoundAs file position character rest round protects) ∨
      ReadAsCode file position (character :: rest) round := by
  rw [lexRound] at h
  split at h
  · next remaining hdashes => exact Or.inl ⟨.comment, comment_found hdashes h⟩
  · next hdashes =>
      split at h
      · next level openerWidth content hopener => exact Or.inl ⟨.string, rawString_found hdashes hopener h⟩
      · next hopener =>
          have hbracket := opener_none_of_lexer hopener
          split at h
          · next next remaining hbreak =>
              cases h
              obtain ⟨lineBreak, hsplit, rfl⟩ := consumeLineBreak_eq_some hbreak
              have hnotPlain : ∀ {other}, isLineBreak other = false → character ≠ other := by
                rintro _ hplain rfl
                rw [splitLineBreak_eq_none.mpr hplain] at hsplit
                cases hsplit
              have hrun : CodeRun file position _ _ _ :=
                codeRun_unit hdashes hbracket (hnotPlain rfl) (hnotPlain rfl)
              rw [consumeSourceUnit_lineBreak hsplit] at hrun
              exact Or.inr (readAsCode_of_codeRun rfl rfl rfl hrun)
          · next hbreak =>
              have hplain := consumeLineBreak_eq_none hbreak
              split at h
              · next hspace =>
                  cases h
                  have hnotSpace : ∀ {other : Char}, other.toNat < 128 →
                      (other.toNat = 32 || (9 ≤ other.toNat && other.toNat ≤ 13)) = false →
                      character ≠ other := by
                    rintro _ hascii hother rfl
                    rw [classes.isSpace_ascii _ hascii, hother] at hspace
                    cases hspace
                  have hrun : CodeRun file position _ _ _ :=
                    codeRun_unit hdashes hbracket (hnotSpace (by decide) (by decide))
                      (hnotSpace (by decide) (by decide))
                  rw [consumeSourceUnit_character hplain] at hrun
                  exact Or.inr (readAsCode_of_codeRun rfl rfl rfl hrun)
              · split at h
                · next hname =>
                    cases h
                    refine Or.inr (readAsCode_of_codeRun rfl ?_ ?_ (name_codeRun hname))
                    · unfold lexName plainToken
                      simp only
                      split <;> rfl
                    · unfold lexName plainToken
                      simp only
                      split <;> rfl
                · split at h
                  · next hdigit => exact Or.inr (number_readAsCode hdigit h)
                  · split at h
                    · next hquote =>
                        rw [hquote]
                        exact Or.inl ⟨.string, string_found h⟩
                    · next hquote =>
                        split at h
                        · next hapostrophe =>
                            rw [hapostrophe] at h ⊢
                            exact Or.inl ⟨.character, character_found h⟩
                        · next hapostrophe =>
                            have hrun := symbol_codeRun hdashes hbracket hquote hapostrophe hplain h
                            unfold lexSymbol at h
                            split at h
                            · cases h
                              exact Or.inr (readAsCode_of_codeRun rfl rfl rfl hrun)
                            · cases h

end CodeRounds

/-! ## Whole sources -/

/-- What a round protects, and where. -/
def Lexer.Round.protected? (file : String) (round : Round) : Option (ProtectedKind × SourceSpan) :=
  round.roundLexeme.protects.map fun kind => (kind, ⟨file, round.roundStart, round.roundEnd⟩)

/-- What a fragment protects, and where. -/
def SourceFragment.protected? (fragment : SourceFragment) : Option (ProtectedKind × SourceSpan) :=
  fragment.sourceFragmentKind.protects.map fun kind => (kind, fragment.sourceFragmentSpan)

/-- A fragment of code from where a round starts, or before, to where it ends, or after. -/
def SourceFragment.CodeAround (fragment : SourceFragment) (first last : SourcePosition) : Prop :=
  fragment.sourceFragmentKind = codeFragment ∧ fragment.sourceFragmentSpan.sourceStart.AtMost first ∧
    last.AtMost fragment.sourceFragmentSpan.sourceEnd

/-- A token that covers text and is neither a string nor a character. -/
def Lexer.Lexeme.IsCodeToken : Lexeme → Prop
  | .token kind _ => kind ≠ stringToken ∧ kind ≠ characterToken ∧ kind ≠ endOfFileToken
  | _ => False

/-- **The fragments and the rounds of the lexer read a source alike**: the fragments give it back, they protect
what the lexer skips as comments and what it takes as strings and characters, in that order and nothing else,
and every other token is inside one fragment of code. -/
structure ReadsAlike (file : String) (source : SourceText) (rounds : List Round)
    (fragments : List SourceFragment) : Prop where
  reconstructs : reconstructSource fragments = source
  protects : fragments.filterMap SourceFragment.protected? = rounds.filterMap (Round.protected? file)
  inCode : ∀ round ∈ rounds, round.roundLexeme.IsCodeToken →
    ∃ fragment ∈ fragments, fragment.CodeAround round.roundStart round.roundEnd

section Sources

variable {classes : CharacterClasses} {file : String} {character : Char} {position finish : SourcePosition}
  {input remaining rest : SourceText} {round : Round} {rounds : List Round} {pending : Pending}
  {output fragments : List SourceFragment}

theorem lexRounds_cons (h : lexRounds classes file position (character :: rest) = .ok rounds) :
    ∃ round later, lexRound classes file position character rest = .ok round ∧
      lexRounds classes file round.roundEnd round.roundRemaining = .ok later ∧ rounds = round :: later := by
  rw [lexRounds] at h
  split at h
  · cases h
  · next round hround =>
      cases hlater : lexRounds classes file round.roundEnd round.roundRemaining with
      | error issue => simp [hlater, bind, Except.bind] at h
      | ok later =>
          simp only [hlater, bind, Except.bind, Except.ok.injEq] at h
          exact ⟨round, later, hround, hlater, h.symm⟩

theorem scanFrom_fragment {kind : SourceFragmentKind} {text : SourceText}
    (h : scanOne file position character rest = .ok (.fragment kind text, finish, remaining)) :
    scanFrom file position pending output (character :: rest)
      = scanFrom file finish none (fragment file kind position finish text :: flushPending file pending output)
          remaining := by
  rw [scanFrom]
  split <;> simp_all

theorem scanFrom_code {unit : SourceText}
    (h : scanOne file position character rest = .ok (.code unit, finish, remaining)) :
    scanFrom file position pending output (character :: rest)
      = scanFrom file finish (appendPending position unit pending) output remaining := by
  rw [scanFrom]
  split <;> simp_all

/-- Where the code that is pending starts, or would start. -/
def pendingStart (position : SourcePosition) (pending : Pending) : SourcePosition :=
  pending.elim position Prod.fst

theorem SourceText.Settled.pendingStart_atMost (h : Settled pending position input) :
    (pendingStart position pending).AtMost position := by
  cases pending with
  | none => exact SourcePosition.AtMost.refl _
  | some code =>
      obtain ⟨start, reversed⟩ := code
      rw [← (h start reversed rfl).1]
      exact atMost_advanceText _ _

/-- Code that is read becomes pending, from where it was pending before. -/
theorem scanFrom_codeRun (hrun : CodeRun file position input finish remaining)
    (hsettled : Settled pending position input) (output : List SourceFragment) :
    ∃ pending', scanFrom file position pending output input = scanFrom file finish pending' output remaining ∧
      Settled pending' finish remaining ∧ position.AtMost finish ∧
      (input = remaining ∧ finish = position ∧ pending' = pending ∨
        ∃ reversed, pending' = some (pendingStart position pending, reversed)) := by
  induction hrun generalizing pending with
  | done => exact ⟨pending, rfl, hsettled, SourcePosition.AtMost.refl _, Or.inl ⟨rfl, rfl, rfl⟩⟩
  | @unit position character rest finish remaining hone hrun ih =>
      obtain ⟨pending', hscan, hsettled', hatMost, hpending⟩ := ih hsettled.append
      refine ⟨pending', (scanFrom_code hone).trans hscan, hsettled',
        (scanOne_eq_ok hone).2.trans hatMost, Or.inr ?_⟩
      have hstart : pendingStart (consumeSourceUnit position (character :: rest)).2.2
          (appendPending position (consumeSourceUnit position (character :: rest)).1 pending)
            = pendingStart position pending := by
        cases pending <;> rfl
      rcases hpending with ⟨-, -, rfl⟩ | ⟨reversed, rfl⟩
      · cases pending with
        | none => exact ⟨_, rfl⟩
        | some code => exact ⟨_, rfl⟩
      · exact ⟨reversed, by rw [hstart]⟩

theorem settled_none (position : SourcePosition) (input : List Char) : Settled none position input := nofun

theorem flushPending_reverse (hsettled : Settled pending position input) :
    ∃ flushed, (flushPending file pending output).reverse = output.reverse ++ flushed ∧
      flushed.filterMap SourceFragment.protected? = [] ∧
      (∀ fragment ∈ flushed, fragment.sourceFragmentSpan.sourceEnd = position) ∧
      ∀ code, pending = some code → ∃ fragment ∈ flushed, fragment.CodeAround code.1 position := by
  cases pending with
  | none => exact ⟨[], by simp [flushPending], rfl, nofun, nofun⟩
  | some code =>
      obtain ⟨start, reversed⟩ := code
      have hend := (hsettled start reversed rfl).1
      refine ⟨[_], List.reverse_cons, rfl, ?_, ?_⟩
      · intro fragment hmem
        rw [List.mem_singleton.mp hmem]
        exact hend
      · intro code hcode
        cases hcode
        refine ⟨_, List.mem_singleton_self _, rfl, SourcePosition.AtMost.refl _, ?_⟩
        show position.AtMost (advanceText start reversed.reverse)
        rw [hend]
        exact SourcePosition.AtMost.refl _

theorem isCodeToken_unprotected (h : round.roundLexeme.IsCodeToken) : round.roundLexeme.protects = none := by
  revert h
  cases round.roundLexeme with
  | blank => exact fun _ => rfl
  | comment => exact fun h => h.elim
  | token kind text =>
      intro h
      cases kind with
      | stringToken => exact absurd rfl h.1
      | characterToken => exact absurd rfl h.2.1
      | _ => rfl

/-- **Rounds without a separator are read alike**, whatever is pending and output before them. -/
theorem scanFrom_rounds (hrounds : lexRounds classes file position input = .ok rounds)
    (hseparators : ∀ round ∈ rounds, round.roundLexeme.hasSeparator = false)
    (hsettled : Settled pending position input) (output : List SourceFragment) :
    ∃ later, scanFrom file position pending output input = .ok (output.reverse ++ later) ∧
      later.filterMap SourceFragment.protected? = rounds.filterMap (Round.protected? file) ∧
      (∀ code, pending = some code → ∃ fragment ∈ later, fragment.CodeAround code.1 position) ∧
      ∀ round ∈ rounds, round.roundLexeme.IsCodeToken →
        ∃ fragment ∈ later, fragment.CodeAround round.roundStart round.roundEnd := by
  induction hlength : input.length using Nat.strong_induction_on
    generalizing position input rounds pending output with
  | _ length ih =>
      cases input with
      | nil =>
          rw [lexRounds] at hrounds
          cases hrounds
          obtain ⟨flushed, hflushed, hprotects, -, hcode⟩ := @flushPending_reverse file _ _ pending output hsettled
          refine ⟨flushed, ?_, hprotects, hcode, ?_⟩
          · rw [scanFrom, hflushed]
          · intro round hmem htoken
            rw [List.mem_singleton.mp hmem] at htoken
            exact absurd rfl htoken.2.2
      | cons character rest =>
          obtain ⟨round, laterRounds, hround, hlaterRounds, rfl⟩ := lexRounds_cons hrounds
          have hshorter := lexRound_shorter hround
          have hseparator := hseparators round (by simp)
          have hlaterSeparators : ∀ other ∈ laterRounds, other.roundLexeme.hasSeparator = false :=
            fun other hother => hseparators other (by simp [hother])
          rcases round_read hround with ⟨protects, kind, text, hone, hkind, hstart, hlexeme⟩ | hcode
          · obtain ⟨flushed, hflushed, hunprotected, -, hpending⟩ :=
              @flushPending_reverse file _ _ pending output hsettled
            have hnone : Settled none round.roundEnd round.roundRemaining := settled_none _ _
            obtain ⟨later, hscan, hlater, -, htokens⟩ := ih _ (by rw [← hlength]; exact hshorter)
              hlaterRounds hlaterSeparators hnone
              (fragment file kind position round.roundEnd text :: flushPending file pending output) rfl
            refine ⟨flushed ++ (fragment file kind position round.roundEnd text :: later), ?_, ?_, ?_, ?_⟩
            · rw [scanFrom_fragment hone, hscan, List.reverse_cons, hflushed]
              simp
            · rw [List.filterMap_append, hunprotected, List.nil_append]
              have hfragment : (fragment file kind position round.roundEnd text).protected?
                  = round.protected? file := by
                simp [SourceFragment.protected?, Round.protected?, fragment, hkind, hlexeme, hstart]
              rw [List.filterMap_cons, List.filterMap_cons, hfragment, hlater]
            · intro code hcode
              obtain ⟨found, hmem, haround⟩ := hpending code hcode
              exact ⟨found, List.mem_append_left _ hmem, haround⟩
            · intro other hother htoken
              rcases List.mem_cons.mp hother with rfl | hother
              · rw [isCodeToken_unprotected htoken] at hlexeme
                cases hlexeme
              · obtain ⟨found, hmem, haround⟩ := htokens other hother htoken
                exact ⟨found, List.mem_append_right _ (List.mem_cons_of_mem _ hmem), haround⟩
          · obtain ⟨pending', hscan, hsettled', hatMost, hpending⟩ :=
              scanFrom_codeRun (hcode.whole hseparator) hsettled output
            rcases hpending with ⟨hsame, -, -⟩ | ⟨reversed, rfl⟩
            · rw [← hsame] at hshorter
              exact absurd hshorter (Nat.lt_irrefl _)
            obtain ⟨later, hlaterScan, hlater, hcovers, htokens⟩ := ih _ (by rw [← hlength]; exact hshorter)
              hlaterRounds hlaterSeparators hsettled' output rfl
            obtain ⟨found, hmem, hkind, hfirst, hlast⟩ := hcovers _ rfl
            refine ⟨later, hscan.trans hlaterScan, ?_, ?_, ?_⟩
            · have hnone : round.protected? file = none := by
                simp [Round.protected?, hcode.unprotected]
              rw [List.filterMap_cons, hnone, hlater]
            · intro code hpending
              rw [hpending] at hfirst
              exact ⟨found, hmem, hkind, hfirst, hatMost.trans hlast⟩
            · intro other hother htoken
              rcases List.mem_cons.mp hother with rfl | hother
              · refine ⟨found, hmem, hkind, ?_, hlast⟩
                rw [hcode.start]
                exact hfirst.trans hsettled.pendingStart_atMost
              · exact htokens other hother htoken

/-- The scanner takes the apostrophe for a quote: what it finds there is a literal, or no end of one. -/
theorem scanOne_apostrophe {found : Found}
    (h : scanOne file position apostrophe rest = .ok (found, finish, remaining)) :
    (∃ text, found = .fragment characterLiteralFragment text) ∧ (position.right 1).AtMost finish := by
  rw [scanOne_character, advanceText_single rfl] at h
  obtain ⟨text, hquoted, rfl⟩ := map_asFragment_eq_ok h
  exact ⟨⟨text, rfl⟩, atMost_consumeQuoted hquoted⟩

/-- A number that is cut at its separator is inside no fragment of code. -/
theorem not_codeAround_of_cut (hcut : CutAtSeparator file position input round)
    (hstart : round.roundStart = position) (hsettled : Settled pending position input)
    (houtput : ∀ fragment ∈ output, fragment.sourceFragmentSpan.sourceEnd.AtMost position)
    (hscan : scanFrom file position pending output input = .ok fragments) :
    ¬ ∃ fragment ∈ fragments, fragment.CodeAround round.roundStart round.roundEnd := by
  obtain ⟨width, after, hrun, hwidth, more, hmore, hend⟩ := hcut
  obtain ⟨pending', hcode, hsettled', -, -⟩ := scanFrom_codeRun hrun hsettled output
  rw [hcode] at hscan
  rintro ⟨fragment, hmem, hkind, hfirst, hlast⟩
  rw [hstart] at hfirst
  rw [hend] at hlast
  cases hone : scanOne file (position.right width) apostrophe after with
  | error issue =>
      rw [scanFrom] at hscan
      split at hscan <;> simp_all
  | ok parts =>
      obtain ⟨found, finish, remaining⟩ := parts
      obtain ⟨⟨text, rfl⟩, hfinish⟩ := scanOne_apostrophe hone
      rw [scanFrom_fragment hone] at hscan
      obtain ⟨later, rfl, hlater⟩ := scanFrom_later hscan (SourcePosition.AtMost.refl finish)
        (fun start reversed hpending => absurd hpending (by simp))
      obtain ⟨flushed, hflushed, -, hends, -⟩ := @flushPending_reverse file _ _ pending' output hsettled'
      rw [List.reverse_cons, hflushed] at hmem
      simp only [List.mem_append, List.mem_reverse, List.mem_singleton] at hmem
      rcases hmem with ((hmem | hmem) | rfl) | hmem
      · -- it was output before the number
        have hbehind := hlast.trans (houtput fragment hmem)
        exact SourcePosition.not_right_atMost (by omega) hbehind
      · -- it is the code in front of the apostrophe
        rw [hends fragment hmem, ← SourcePosition.right_right] at hlast
        exact SourcePosition.not_right_atMost hmore hlast
      · cases hkind
      · -- it starts after the apostrophe
        rw [SourcePosition.right_right] at hfinish
        have hahead := (hfinish.trans (hlater fragment hmem)).trans hfirst
        exact SourcePosition.not_right_atMost (Nat.succ_pos _) hahead

/-- **Where a number has a separator, the source is not read alike.** -/
theorem scanFrom_cut (hrounds : lexRounds classes file position input = .ok rounds)
    (hsettled : Settled pending position input)
    (houtput : ∀ fragment ∈ output, fragment.sourceFragmentSpan.sourceEnd.AtMost position)
    (hscan : scanFrom file position pending output input = .ok fragments)
    (hseparator : ∃ round ∈ rounds, round.roundLexeme.hasSeparator = true) :
    ∃ round ∈ rounds, round.roundLexeme.hasSeparator = true ∧
      ¬ ∃ fragment ∈ fragments, fragment.CodeAround round.roundStart round.roundEnd := by
  induction hlength : input.length using Nat.strong_induction_on
    generalizing position input rounds pending output with
  | _ length ih =>
      cases input with
      | nil =>
          rw [lexRounds] at hrounds
          cases hrounds
          obtain ⟨round, hmem, hround⟩ := hseparator
          rw [List.mem_singleton.mp hmem] at hround
          cases hround
      | cons character rest =>
          obtain ⟨round, laterRounds, hround, hlaterRounds, rfl⟩ := lexRounds_cons hrounds
          have hshorter := lexRound_shorter hround
          have hfirst : round.roundLexeme.hasSeparator = false →
              ∃ other ∈ laterRounds, other.roundLexeme.hasSeparator = true := by
            intro hnone
            obtain ⟨other, hmem, hother⟩ := hseparator
            rcases List.mem_cons.mp hmem with rfl | hmem
            · rw [hnone] at hother
              cases hother
            · exact ⟨other, hmem, hother⟩
          rcases round_read hround with ⟨protects, kind, text, hone, hkind, hstart, hlexeme⟩ | hcode
          · have hnone : round.roundLexeme.hasSeparator = false := by
              revert hlexeme
              cases round.roundLexeme with
              | blank =>
                  intro hprotects
                  cases hprotects
              | comment => exact fun _ => rfl
              | token tokenKind tokenText => cases tokenKind <;> exact fun h => by first | rfl | cases h
            have hfinish := (scanOne_eq_ok hone).2
            obtain ⟨flushed, hflushed, -, hends, -⟩ := @flushPending_reverse file _ _ pending output hsettled
            rw [scanFrom_fragment hone] at hscan
            have hsettled' : Settled none round.roundEnd round.roundRemaining := settled_none _ _
            obtain ⟨other, hmem, hother⟩ := ih _ (by rw [← hlength]; exact hshorter) hlaterRounds hsettled' (by
              intro fragment hmem
              rcases List.mem_cons.mp hmem with rfl | hmem
              · exact SourcePosition.AtMost.refl _
              · rw [← List.mem_reverse, hflushed, List.mem_append, List.mem_reverse] at hmem
                rcases hmem with hmem | hmem
                · exact (houtput fragment hmem).trans hfinish
                · rw [hends fragment hmem]
                  exact hfinish) hscan (hfirst hnone) rfl
            exact ⟨other, List.mem_cons_of_mem _ hmem, hother⟩
          · cases hnumber : round.roundLexeme.hasSeparator with
            | true =>
                exact ⟨round, List.mem_cons_self, hnumber,
                  not_codeAround_of_cut (hcode.cut hnumber) hcode.start hsettled houtput hscan⟩
            | false =>
                obtain ⟨pending', hrun, hsettled', hatMost, -⟩ :=
                  scanFrom_codeRun (hcode.whole hnumber) hsettled output
                rw [hrun] at hscan
                obtain ⟨other, hmem, hother⟩ := ih _ (by rw [← hlength]; exact hshorter) hlaterRounds hsettled'
                  (fun fragment hmem => (houtput fragment hmem).trans hatMost) hscan (hfirst hnumber) rfl
                exact ⟨other, List.mem_cons_of_mem _ hmem, hother⟩

theorem isCodeToken_of_hasSeparator (h : round.roundLexeme.hasSeparator = true) :
    round.roundLexeme.IsCodeToken := by
  revert h
  cases round.roundLexeme with
  | blank => exact nofun
  | comment => exact nofun
  | token kind text =>
      cases kind with
      | integerToken => exact fun _ => ⟨nofun, nofun, nofun⟩
      | floatingToken => exact fun _ => ⟨nofun, nofun, nofun⟩
      | _ => exact nofun

/-- A number of the token list whose spelling has an apostrophe. -/
def Token.hasSeparator (token : Token) : Bool :=
  (token.tokenKind = integerToken || token.tokenKind = floatingToken) && token.tokenText.contains apostrophe

theorem hasSeparator_tokens :
    (∃ token ∈ rounds.filterMap (Round.token? file), token.hasSeparator = true) ↔
      ∃ round ∈ rounds, round.roundLexeme.hasSeparator = true := by
  have hround : ∀ round : Round, round.roundLexeme.hasSeparator = true ↔
      ∃ token, round.token? file = some token ∧ token.hasSeparator = true := by
    intro round
    unfold Round.token?
    cases round.roundLexeme with
    | blank => simp [Lexeme.hasSeparator]
    | comment => simp [Lexeme.hasSeparator]
    | token kind text => cases kind <;> simp [Lexeme.hasSeparator, Token.hasSeparator]
  simp only [List.mem_filterMap, hround]
  constructor
  · rintro ⟨token, ⟨round, hmem, htoken⟩, hseparator⟩
    exact ⟨round, hmem, token, htoken, hseparator⟩
  · rintro ⟨round, hmem, token, htoken, hseparator⟩
    exact ⟨token, ⟨round, hmem, htoken⟩, hseparator⟩

end Sources

/-- The lossless scanner succeeds on a source and reads it as the rounds of the lexer do. -/
def ScannedAlike (input : LexerInput) (rounds : List Round) : Prop :=
  ∃ fragments, scanSourceFragments input.lexerSourceFile input.lexerSourceText = .ok fragments ∧
    ReadsAlike input.lexerSourceFile input.lexerSourceText rounds fragments

/-- **The lossless scanner reads a source as the lexer does exactly when no number has a separator.** -/
theorem scannedAlike_iff (classes : CharacterClasses) (input : LexerInput) (tokens : List Token)
    (h : lexTala classes input = .ok tokens) :
    ∃ rounds, sourceRounds classes input = .ok rounds ∧
      tokens = rounds.filterMap (Round.token? input.lexerSourceFile) ∧
      (ScannedAlike input rounds ↔ ∀ token ∈ tokens, token.hasSeparator = false) := by
  unfold lexTala at h
  cases hrounds : lexRounds classes input.lexerSourceFile ⟨1, 1⟩ input.lexerSourceText with
  | error issue => simp [sourceRounds, hrounds, bind, Except.bind] at h
  | ok rounds =>
      have hsource : sourceRounds classes input = .ok rounds := by rw [sourceRounds, hrounds]
      simp only [hsource, bind, Except.bind, Except.ok.injEq] at h
      refine ⟨rounds, hsource, h.symm, ?_⟩
      have hsettled : Settled none ⟨1, 1⟩ input.lexerSourceText := nofun
      constructor
      · rintro ⟨fragments, hscan, halike⟩ token hmem
        by_contra hseparator
        rw [Bool.not_eq_false] at hseparator
        rw [← h] at hmem
        have hbad := hasSeparator_tokens.mp ⟨token, hmem, hseparator⟩
        unfold scanSourceFragments at hscan
        split at hscan
        · cases hscan
        · next found hfound =>
            cases hscan
            obtain ⟨round, hround, hround', houtside⟩ := scanFrom_cut hrounds hsettled
              (fun _ hmem => absurd hmem List.not_mem_nil) hfound hbad
            exact houtside (halike.inCode round hround (isCodeToken_of_hasSeparator hround'))
      · intro hnone
        have hseparators : ∀ round ∈ rounds, round.roundLexeme.hasSeparator = false := by
          intro round hmem
          by_contra hseparator
          rw [Bool.not_eq_false] at hseparator
          obtain ⟨token, hmem', hseparator'⟩ :=
            (@hasSeparator_tokens input.lexerSourceFile rounds).mpr ⟨round, hmem, hseparator⟩
          rw [hnone token (h ▸ hmem')] at hseparator'
          cases hseparator'
        obtain ⟨later, hscan, hprotects, -, hinCode⟩ := scanFrom_rounds hrounds hseparators hsettled []
        refine ⟨later, ?_, ?_, hprotects, hinCode⟩
        · rw [scanSourceFragments, hscan]
          rfl
        · have hreconstructs := reconstructSource_scanFrom hscan
          exact hreconstructs

/-! ### A separator, and a source without one -/

/-- ASCII only. -/
def asciiClasses : CharacterClasses where
  isAlpha := Char.isAlpha
  isAlphaNum := Char.isAlphanum
  isSpace character := character.toNat = 32 || (9 ≤ character.toNat && character.toNat ≤ 13)
  showCharacter character := String.ofList [apostrophe, character, apostrophe]
  isAlpha_ascii _ _ := rfl
  isAlphaNum_ascii _ _ := rfl
  isSpace_ascii _ _ := rfl

section Samples

variable {classes : CharacterClasses} {file : String} {character : Char} {position : SourcePosition}
  {rest : SourceText} {round : Round} {later : List Round}

theorem lexRounds_of_cons (hround : lexRound classes file position character rest = .ok round)
    (hlater : lexRounds classes file round.roundEnd round.roundRemaining = .ok later) :
    lexRounds classes file position (character :: rest) = .ok (round :: later) := by
  rw [lexRounds]
  split
  · next issue hissue =>
      rw [hround] at hissue
      cases hissue
  · next other hother =>
      rw [hround] at hother
      cases hother
      rw [hlater]
      rfl

theorem lexRounds_nil : lexRounds classes file position []
    = .ok [⟨.token endOfFileToken [], position, position, []⟩] := by rw [lexRounds]

end Samples

/-- `7--`. -/
def sevenSource : LexerInput := ⟨"sample.tala", ['7', '-', '-']⟩

/-- `1'0`. -/
def separatedSource : LexerInput := ⟨"sample.tala", ['1', apostrophe, '0']⟩

theorem lexRounds_seven : lexRounds asciiClasses "sample.tala" ⟨1, 1⟩ ['7', '-', '-']
    = .ok [⟨.token integerToken ['7'], ⟨1, 1⟩, ⟨1, 2⟩, ['-', '-']⟩, ⟨.comment, ⟨1, 2⟩, ⟨1, 4⟩, []⟩,
      ⟨.token endOfFileToken [], ⟨1, 4⟩, ⟨1, 4⟩, []⟩] :=
  lexRounds_of_cons rfl (lexRounds_of_cons rfl lexRounds_nil)

/-- The general result at `7--`: a number and a comment. -/
theorem scannedAlike_seven : ∃ rounds, sourceRounds asciiClasses sevenSource = .ok rounds ∧
    [⟨integerToken, ['7'], ⟨"sample.tala", ⟨1, 1⟩, ⟨1, 2⟩⟩⟩,
      ⟨endOfFileToken, [], ⟨"sample.tala", ⟨1, 4⟩, ⟨1, 4⟩⟩⟩]
      = rounds.filterMap (Round.token? sevenSource.lexerSourceFile) ∧
    (ScannedAlike sevenSource rounds ↔ ∀ token ∈ ([⟨integerToken, ['7'], ⟨"sample.tala", ⟨1, 1⟩, ⟨1, 2⟩⟩⟩,
      ⟨endOfFileToken, [], ⟨"sample.tala", ⟨1, 4⟩, ⟨1, 4⟩⟩⟩] : List Token), token.hasSeparator = false) :=
  scannedAlike_iff asciiClasses sevenSource _ (by
    rw [lexTala, sourceRounds, show lexRounds asciiClasses sevenSource.lexerSourceFile ⟨1, 1⟩
      sevenSource.lexerSourceText = _ from lexRounds_seven]
    rfl)

theorem lexRounds_separated : lexRounds asciiClasses "sample.tala" ⟨1, 1⟩ ['1', apostrophe, '0']
    = .ok [⟨.token integerToken ['1', apostrophe, '0'], ⟨1, 1⟩, ⟨1, 4⟩, []⟩,
      ⟨.token endOfFileToken [], ⟨1, 4⟩, ⟨1, 4⟩, []⟩] :=
  lexRounds_of_cons rfl lexRounds_nil

/-- **`1'0` is one number for the lexer**, and a literal without an end for the scanner. -/
theorem not_scannedAlike_separated : ¬ ∀ (classes : CharacterClasses) (input : LexerInput) (rounds : List Round),
    sourceRounds classes input = .ok rounds → ScannedAlike input rounds := by
  intro halike
  have hrounds : sourceRounds asciiClasses separatedSource
      = .ok [⟨.token integerToken ['1', apostrophe, '0'], ⟨1, 1⟩, ⟨1, 4⟩, []⟩,
        ⟨.token endOfFileToken [], ⟨1, 4⟩, ⟨1, 4⟩, []⟩] := by
    rw [sourceRounds, show lexRounds asciiClasses separatedSource.lexerSourceFile ⟨1, 1⟩
      separatedSource.lexerSourceText = _ from lexRounds_separated]
  obtain ⟨fragments, hscan, -⟩ := halike asciiClasses separatedSource _ hrounds
  have hdigit : ∀ position rest, scanOne "sample.tala" position '1' rest
      = .ok (.code ['1'], position.right 1, rest) := fun _ _ => rfl
  have hopen : scanOne "sample.tala" (SourcePosition.right ⟨1, 1⟩ 1) apostrophe ['0']
      = .error (unterminated "sample.tala" characterLiteralFragment ⟨1, 2⟩ ⟨1, 4⟩) := by
    have hzero : consumeQuoted "sample.tala" characterLiteralFragment apostrophe ⟨1, 2⟩ ⟨1, 3⟩ [apostrophe] ['0']
        = .error (unterminated "sample.tala" characterLiteralFragment ⟨1, 2⟩ ⟨1, 4⟩) := by
      rw [consumeQuoted_cons (by decide) (by decide), consumeSourceUnit_character rfl, consumeQuoted]
      rfl
    rw [scanOne_character, advanceText_single rfl]
    exact congrArg _ hzero
  have hfails : scanFrom "sample.tala" ⟨1, 1⟩ none [] ['1', apostrophe, '0']
      = .error (unterminated "sample.tala" characterLiteralFragment ⟨1, 2⟩ ⟨1, 4⟩) := by
    rw [scanFrom_code (hdigit _ _), scanFrom]
    split <;> simp_all
  rw [scanSourceFragments, show scanFrom separatedSource.lexerSourceFile ⟨1, 1⟩ none []
    separatedSource.lexerSourceText = _ from hfails] at hscan
  cases hscan

end Tala.Syntax
