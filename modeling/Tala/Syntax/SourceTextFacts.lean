import Tala.Syntax.SourceText

/-!
# `Syntax.SourceTextFacts` — positions and order of fragments

Advancing over a text is advancing over its parts, as long as no line break is cut in two. Code that is
pending ends where the scanner stands, and fragments come in the order of the source.
-/

namespace Tala.Syntax.SourceText

open Tala.Syntax SourceFragmentKind

/-! ## Advancing -/

section Advance

variable {position : SourcePosition} {character : Char} {rest text input remaining : SourceText}

theorem consumeSourceUnit_character (h : isLineBreak character = false) :
    consumeSourceUnit position (character :: rest) = ([character], rest, position.right 1) := by
  unfold consumeSourceUnit
  rw [splitLineBreak_eq_none.mpr h]

theorem consumeSourceUnit_lineBreak {lineBreak : SourceText}
    (h : splitLineBreak input = some (lineBreak, remaining)) :
    consumeSourceUnit position input = (lineBreak, remaining, position.nextLine) := by
  unfold consumeSourceUnit
  rw [h]

theorem atMost_consumeSourceUnit (position : SourcePosition) (input : SourceText) :
    position.AtMost (consumeSourceUnit position input).2.2 := by
  unfold consumeSourceUnit
  split
  · exact position.atMost_nextLine
  · cases input with
    | nil => exact SourcePosition.AtMost.refl _
    | cons character rest => exact position.atMost_right 1

theorem advanceText_nil : advanceText position [] = position := by rw [advanceText]

theorem advanceText_cons : advanceText position (character :: rest)
    = advanceText (consumeSourceUnit position (character :: rest)).2.2
        (consumeSourceUnit position (character :: rest)).2.1 := by
  rw [advanceText]

theorem atMost_advanceText (position : SourcePosition) (input : SourceText) :
    position.AtMost (advanceText position input) := by
  fun_induction advanceText position input with
  | case1 position => exact SourcePosition.AtMost.refl _
  | case2 position character rest ih => exact (atMost_consumeSourceUnit _ _).trans ih

/-- Text without a line break is as wide as it is long. -/
theorem advanceText_plain (h : ∀ character ∈ text, isLineBreak character = false) :
    advanceText position text = position.right text.length := by
  induction text generalizing position with
  | nil => rw [advanceText_nil, List.length_nil, SourcePosition.right_zero]
  | cons character rest ih =>
      rw [advanceText_cons, consumeSourceUnit_character (h character (by simp))]
      rw [ih fun other hother => h other (by simp [hother]), SourcePosition.right_right, List.length_cons,
        Nat.add_comm]

/-- No line break is cut in two between the texts. -/
def Boundary (first second : SourceText) : Prop :=
  first.getLast? = some carriageReturn → second.head? ≠ some lineFeed

theorem advanceText_append (h : Boundary text remaining) :
    advanceText position (text ++ remaining) = advanceText (advanceText position text) remaining := by
  fun_induction advanceText position text with
  | case1 position => rfl
  | case2 position character rest ih =>
      rw [List.cons_append, advanceText_cons]
      cases hsplit : splitLineBreak (character :: rest) with
      | none =>
          have hplain := splitLineBreak_eq_none.mp hsplit
          rw [consumeSourceUnit_character hplain] at ih ⊢
          rw [consumeSourceUnit_character hplain]
          apply ih
          intro hlast
          apply h
          rw [List.getLast?_cons, hlast]
          rfl
      | some parts =>
          obtain ⟨lineBreak, after⟩ := parts
          obtain ⟨hinput, -, -⟩ := splitLineBreak_eq_some hsplit
          -- only a lone carriage return at the end could grow, and it does not
          have hsplit' : splitLineBreak (character :: (rest ++ remaining)) = some (lineBreak, after ++ remaining) := by
            show splitLineBreak (character :: rest ++ remaining) = _
            refine splitLineBreak_append hsplit fun hafter hlast => h ?_
            rw [hinput, hafter, List.append_nil, hlast]
          rw [consumeSourceUnit_lineBreak hsplit] at ih ⊢
          rw [consumeSourceUnit_lineBreak hsplit']
          apply ih
          intro hlast
          apply h
          rw [hinput, List.getLast?_append, hlast]
          rfl

end Advance

/-! ## Nothing is lost -/

/-- The text of what was found. -/
def Found.text : Found → SourceText
  | .fragment _ text => text
  | .code unit => unit

/-- The text of code that is pending. -/
def Pending.text : Pending → SourceText
  | none => []
  | some (_, reversed) => reversed.reverse

section Scan

variable {file : String} {kind : SourceFragmentKind} {delimiter character : Char}
  {start position finish : SourcePosition} {level : Nat} {reversed input text remaining rest : SourceText}
  {found : Found} {pending : Pending} {output fragments : List SourceFragment}

theorem consumeQuoted_append
    (h : consumeQuoted file kind delimiter start position reversed input = .ok (text, finish, remaining)) :
    reversed.reverse ++ input = text ++ remaining := by
  fun_induction consumeQuoted file kind delimiter start position reversed input with
  | case1 => cases h
  | case2 =>
      cases h
      simp
  | case3 => cases h
  | case4 position reversed next rest slashEnd escaped hdelimiter ih =>
      have happend : escaped.1 ++ escaped.2.1 = next :: rest := consumeSourceUnit_append _ _
      rw [← ih h, ← happend]
      simp
  | case5 position reversed character rest hdelimiter hslash unit ih =>
      have happend : unit.1 ++ unit.2.1 = character :: rest := consumeSourceUnit_append _ _
      rw [← ih h, ← happend]
      simp

theorem consumeLong_append
    (h : consumeLong file kind start level position reversed input = .ok (text, finish, remaining)) :
    reversed.reverse ++ input = text ++ remaining := by
  fun_induction consumeLong file kind start level position reversed input with
  | case1 position reversed input rest hcloser =>
      cases h
      rw [stripPrefix_eq_some.mp hcloser, List.append_assoc]
  | case2 => cases h
  | case3 position reversed character rest unit hcloser ih =>
      have happend : unit.1 ++ unit.2.1 = character :: rest := consumeSourceUnit_append _ _
      rw [← ih h, ← happend]
      simp

theorem atMost_consumeQuoted
    (h : consumeQuoted file kind delimiter start position reversed input = .ok (text, finish, remaining)) :
    position.AtMost finish := by
  fun_induction consumeQuoted file kind delimiter start position reversed input with
  | case1 => cases h
  | case2 =>
      cases h
      exact atMost_advanceText _ _
  | case3 => cases h
  | case4 position reversed next rest slashEnd escaped hdelimiter ih =>
      exact ((atMost_advanceText _ _).trans (atMost_consumeSourceUnit slashEnd _)).trans (ih h)
  | case5 position reversed character rest hdelimiter hslash unit ih =>
      exact (atMost_consumeSourceUnit _ _).trans (ih h)

theorem atMost_consumeLong
    (h : consumeLong file kind start level position reversed input = .ok (text, finish, remaining)) :
    position.AtMost finish := by
  fun_induction consumeLong file kind start level position reversed input with
  | case1 position reversed input rest hcloser =>
      cases h
      exact atMost_advanceText _ _
  | case2 => cases h
  | case3 position reversed character rest unit hcloser ih =>
      exact (atMost_consumeSourceUnit _ _).trans (ih h)

/-- A round takes text from the front of the input, and does not go back. -/
theorem scanOne_eq_ok (h : scanOne file position character rest = .ok (found, finish, remaining)) :
    character :: rest = found.text ++ remaining ∧ position.AtMost finish := by
  rw [scanOne] at h
  split at h
  · next after hdashes =>
      rw [stripPrefix_eq_some.mp hdashes]
      split at h
      · next level opener content hopener =>
          obtain ⟨text, hlong, rfl⟩ := map_asFragment_eq_ok h
          have happend := consumeLong_append hlong
          rw [List.reverse_reverse] at happend
          rw [(longBracketOpener_eq_some hopener).1, ← List.append_assoc, happend]
          exact ⟨rfl, (atMost_advanceText _ _).trans (atMost_consumeLong hlong)⟩
      · cases h
        refine ⟨?_, atMost_advanceText _ _⟩
        show _ = _ ++ _ ++ _
        rw [List.append_assoc, List.takeWhile_append_dropWhile]
  · split at h
    · next level opener content hopener =>
        obtain ⟨text, hlong, rfl⟩ := map_asFragment_eq_ok h
        have happend := consumeLong_append hlong
        rw [List.reverse_reverse] at happend
        rw [(longBracketOpener_eq_some hopener).1, happend]
        exact ⟨rfl, (atMost_advanceText _ _).trans (atMost_consumeLong hlong)⟩
    · split at h
      · next hquote =>
        obtain ⟨text, hquoted, rfl⟩ := map_asFragment_eq_ok h
        rw [hquote]
        exact ⟨consumeQuoted_append hquoted, (atMost_advanceText _ _).trans (atMost_consumeQuoted hquoted)⟩
      · split at h
        · next hquote =>
          obtain ⟨text, hquoted, rfl⟩ := map_asFragment_eq_ok h
          rw [hquote]
          exact ⟨consumeQuoted_append hquoted, (atMost_advanceText _ _).trans (atMost_consumeQuoted hquoted)⟩
        · cases h
          exact ⟨(consumeSourceUnit_append _ _).symm, atMost_consumeSourceUnit _ _⟩

theorem text_appendPending (unit : SourceText) :
    Pending.text (appendPending position unit pending) = Pending.text pending ++ unit := by
  cases pending with
  | none => simp [appendPending, Pending.text]
  | some code => simp [appendPending, Pending.text]

theorem reconstructSource_append (first second : List SourceFragment) :
    reconstructSource (first ++ second) = reconstructSource first ++ reconstructSource second := by
  simp [reconstructSource]

theorem reconstructSource_flushPending :
    reconstructSource (flushPending file pending output).reverse
      = reconstructSource output.reverse ++ Pending.text pending := by
  cases pending with
  | none => simp [flushPending, Pending.text]
  | some code => simp [flushPending, Pending.text, reconstructSource, fragment]

/-- **Fragments give the source back**: what is output, what is pending and what is left. -/
theorem reconstructSource_scanFrom (h : scanFrom file position pending output input = .ok fragments) :
    reconstructSource fragments = reconstructSource output.reverse ++ Pending.text pending ++ input := by
  fun_induction scanFrom file position pending output input with
  | case1 position pending output =>
      cases h
      rw [reconstructSource_flushPending, List.append_nil]
  | case2 => cases h
  | case3 position pending output character rest kind text finish remaining hone ih =>
      rw [ih h, (scanOne_eq_ok hone).1, List.reverse_cons, reconstructSource_append,
        reconstructSource_flushPending]
      simp [reconstructSource, fragment, Pending.text, Found.text]
  | case4 position pending output character rest unit finish remaining hone ih =>
      rw [ih h, (scanOne_eq_ok hone).1, text_appendPending]
      simp [Found.text]

/-! ## The order of fragments -/

/-- What is found later starts later; `bound` is where the code that is pending starts. -/
theorem scanFrom_later {bound : SourcePosition}
    (h : scanFrom file position pending output input = .ok fragments) (hposition : bound.AtMost position)
    (hpending : ∀ start reversed, pending = some (start, reversed) → bound.AtMost start) :
    ∃ later, fragments = output.reverse ++ later ∧
      ∀ fragment ∈ later, bound.AtMost fragment.sourceFragmentSpan.sourceStart := by
  have hflush : ∀ {pending : Pending} {output : List SourceFragment},
      (∀ start reversed, pending = some (start, reversed) → bound.AtMost start) →
      ∃ later, (flushPending file pending output).reverse = output.reverse ++ later ∧
        ∀ fragment ∈ later, bound.AtMost fragment.sourceFragmentSpan.sourceStart := by
    intro pending output hpending
    cases pending with
    | none => exact ⟨[], (List.append_nil _).symm, nofun⟩
    | some code =>
        obtain ⟨start, reversed⟩ := code
        refine ⟨[_], List.reverse_cons, ?_⟩
        intro fragment hmem
        rw [List.mem_singleton] at hmem
        rw [hmem]
        exact hpending start reversed rfl
  fun_induction scanFrom file position pending output input with
  | case1 position pending output =>
      cases h
      exact hflush hpending
  | case2 => cases h
  | case3 position pending output character rest kind text finish remaining hone ih =>
      obtain ⟨later, hfragments, hlater⟩ := ih h (hposition.trans (scanOne_eq_ok hone).2) nofun
      obtain ⟨flushed, hflushed, hbound⟩ := hflush hpending
      rw [List.reverse_cons, hflushed] at hfragments
      refine ⟨flushed ++ (fragment file kind position finish text :: later), by rw [hfragments]; simp, ?_⟩
      intro found hmem
      rcases List.mem_append.mp hmem with hmem | hmem
      · exact hbound found hmem
      · rcases List.mem_cons.mp hmem with rfl | hmem
        · exact hposition
        · exact hlater found hmem
  | case4 position pending output character rest unit finish remaining hone ih =>
      apply ih h (hposition.trans (scanOne_eq_ok hone).2)
      intro start reversed hstart
      cases pending with
      | none =>
          cases hstart
          exact hposition
      | some code =>
          cases hstart
          exact hpending _ _ rfl

/-! ## Code that is pending ends where the scanner stands -/

/-- The pending code ends at the position, and the input does not complete a line break of it. -/
def Settled (pending : Pending) (position : SourcePosition) (input : SourceText) : Prop :=
  ∀ start reversed, pending = some (start, reversed) →
    advanceText start reversed.reverse = position ∧ Boundary reversed.reverse input

theorem boundary_consumeSourceUnit :
    Boundary (consumeSourceUnit position (character :: rest)).1
      (consumeSourceUnit position (character :: rest)).2.1 := by
  cases hsplit : splitLineBreak (character :: rest) with
  | none =>
      have hplain := splitLineBreak_eq_none.mp hsplit
      rw [consumeSourceUnit_character hplain]
      intro hlast
      cases hlast
      exact absurd hplain (by decide)
  | some parts =>
      rw [consumeSourceUnit_lineBreak hsplit]
      exact (splitLineBreak_eq_some hsplit).2.2

theorem advanceText_consumeSourceUnit :
    advanceText position (consumeSourceUnit position (character :: rest)).1
      = (consumeSourceUnit position (character :: rest)).2.2 := by
  cases hsplit : splitLineBreak (character :: rest) with
  | none =>
      have hplain := splitLineBreak_eq_none.mp hsplit
      rw [consumeSourceUnit_character hplain, advanceText_cons, consumeSourceUnit_character hplain,
        advanceText_nil]
  | some parts =>
      obtain ⟨lineBreak, after⟩ := parts
      obtain ⟨hinput, hnonempty, -⟩ := splitLineBreak_eq_some hsplit
      rw [consumeSourceUnit_lineBreak hsplit]
      have halone := splitLineBreak_self hsplit
      cases lineBreak with
      | nil => exact absurd rfl hnonempty
      | cons first others => rw [advanceText_cons, consumeSourceUnit_lineBreak halone, advanceText_nil]

theorem consumeSourceUnit_nonempty : (consumeSourceUnit position (character :: rest)).1 ≠ [] := by
  intro hempty
  have happend := consumeSourceUnit_append position (character :: rest)
  have hshorter := consumeSourceUnit_shorter position character rest
  rw [hempty, List.nil_append] at happend
  rw [happend] at hshorter
  exact Nat.lt_irrefl _ hshorter

/-- A unit of code keeps the pending code settled. -/
theorem Settled.append (h : Settled pending position (character :: rest)) :
    Settled (appendPending position (consumeSourceUnit position (character :: rest)).1 pending)
      (consumeSourceUnit position (character :: rest)).2.2
      (consumeSourceUnit position (character :: rest)).2.1 := by
  intro start reversed hpending
  cases pending with
  | none =>
      cases hpending
      rw [List.reverse_reverse]
      exact ⟨advanceText_consumeSourceUnit, boundary_consumeSourceUnit⟩
  | some code =>
      obtain ⟨codeStart, code⟩ := code
      obtain ⟨hcode, hboundary⟩ := h codeStart code rfl
      cases hpending
      rw [List.reverse_append, List.reverse_reverse]
      have happend := consumeSourceUnit_append position (character :: rest)
      have hnonempty : (consumeSourceUnit position (character :: rest)).1 ≠ [] := consumeSourceUnit_nonempty
      have hunit : Boundary (consumeSourceUnit position (character :: rest)).1
          (consumeSourceUnit position (character :: rest)).2.1 := boundary_consumeSourceUnit
      have hadvance : advanceText position (consumeSourceUnit position (character :: rest)).1
          = (consumeSourceUnit position (character :: rest)).2.2 := advanceText_consumeSourceUnit
      generalize (consumeSourceUnit position (character :: rest)).1 = unit at *
      generalize (consumeSourceUnit position (character :: rest)).2.1 = remaining at *
      generalize (consumeSourceUnit position (character :: rest)).2.2 = finish at *
      cases unit with
      | nil => exact absurd rfl hnonempty
      | cons first others =>
          have hcode' : Boundary code.reverse (first :: others) := by
            rw [← happend] at hboundary
            exact hboundary
          refine ⟨by rw [advanceText_append hcode', hcode, hadvance], ?_⟩
          intro hlast
          apply hunit
          rw [← hlast, List.getLast?_append]
          cases hothers : (first :: others).getLast? with
          | none => exact absurd (List.getLast?_eq_none_iff.mp hothers) nofun
          | some last => rfl

/-! ## What a round finds -/

section Rounds

variable {opener content : SourceText}

theorem scanOne_longComment (hdashes : stripPrefix ['-', '-'] (character :: rest) = some input)
    (hopener : longBracketOpener input = some (level, opener, content)) :
    scanOne file position character rest
      = (consumeLong file longCommentFragment position level (advanceText position (['-', '-'] ++ opener))
          (['-', '-'] ++ opener).reverse content).map (asFragment longCommentFragment) := by
  simp only [scanOne, hdashes, hopener]

theorem scanOne_lineComment (hdashes : stripPrefix ['-', '-'] (character :: rest) = some input)
    (hopener : longBracketOpener input = none) :
    scanOne file position character rest = .ok (.fragment lineCommentFragment
      (['-', '-'] ++ input.takeWhile fun character => !isLineBreak character),
      advanceText position (['-', '-'] ++ input.takeWhile fun character => !isLineBreak character),
      input.dropWhile fun character => !isLineBreak character) := by
  simp only [scanOne, hdashes, hopener, asFragment]

theorem scanOne_rawString (hdashes : stripPrefix ['-', '-'] (character :: rest) = none)
    (hopener : longBracketOpener (character :: rest) = some (level, opener, content)) :
    scanOne file position character rest
      = (consumeLong file rawStringLiteralFragment position level (advanceText position opener)
          opener.reverse content).map (asFragment rawStringLiteralFragment) := by
  simp only [scanOne, hdashes, hopener]

theorem scanOne_string :
    scanOne file position doubleQuote rest
      = (consumeQuoted file stringLiteralFragment doubleQuote position (advanceText position [doubleQuote])
          [doubleQuote] rest).map (asFragment stringLiteralFragment) := by
  have hdashes : stripPrefix ['-', '-'] (doubleQuote :: rest) = none := rfl
  have hopener : longBracketOpener (doubleQuote :: rest) = none := rfl
  simp only [scanOne, hdashes, hopener, if_true]

theorem scanOne_character :
    scanOne file position apostrophe rest
      = (consumeQuoted file characterLiteralFragment apostrophe position (advanceText position [apostrophe])
          [apostrophe] rest).map (asFragment characterLiteralFragment) := by
  have hdashes : stripPrefix ['-', '-'] (apostrophe :: rest) = none := rfl
  have hopener : longBracketOpener (apostrophe :: rest) = none := rfl
  have hquote : apostrophe ≠ doubleQuote := by decide
  simp only [scanOne, hdashes, hopener, if_neg hquote, if_true]

theorem scanOne_code (hdashes : stripPrefix ['-', '-'] (character :: rest) = none)
    (hopener : longBracketOpener (character :: rest) = none) (hquote : character ≠ doubleQuote)
    (hapostrophe : character ≠ apostrophe) :
    scanOne file position character rest
      = .ok (.code (consumeSourceUnit position (character :: rest)).1,
          (consumeSourceUnit position (character :: rest)).2.2,
          (consumeSourceUnit position (character :: rest)).2.1) := by
  simp only [scanOne, hdashes, hopener, if_neg hquote, if_neg hapostrophe]

end Rounds

end Scan

end Tala.Syntax.SourceText
