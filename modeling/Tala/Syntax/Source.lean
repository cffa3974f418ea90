import Mathlib.Data.List.Basic
import Mathlib.Data.List.TakeWhile

/-!
# `Syntax.Source` — source texts, positions and line breaks

A source text is a list of characters. A position counts lines and columns from one; a line break is `\n`,
`\r\n` or a lone `\r`, and every other character is one column. What the Unicode tables of the standard
library say beyond ASCII is a parameter, `CharacterClasses`.
-/

namespace Tala.Syntax

/-- Source text, character by character. -/
abbrev SourceText := List Char

def lineFeed : Char := Char.ofNat 10
def carriageReturn : Char := Char.ofNat 13
def doubleQuote : Char := Char.ofNat 34
def apostrophe : Char := Char.ofNat 39
def backslash : Char := Char.ofNat 92

structure SourcePosition where
  sourceLine : Nat
  sourceColumn : Nat
  deriving DecidableEq, Repr

namespace SourcePosition

/-- Source order. -/
def AtMost (first second : SourcePosition) : Prop :=
  first.sourceLine < second.sourceLine ∨
    (first.sourceLine = second.sourceLine ∧ first.sourceColumn ≤ second.sourceColumn)

/-- The start of the next line. -/
def nextLine (position : SourcePosition) : SourcePosition := ⟨position.sourceLine + 1, 1⟩

/-- Columns further on the line. -/
def right (position : SourcePosition) (columns : Nat) : SourcePosition :=
  ⟨position.sourceLine, position.sourceColumn + columns⟩

theorem AtMost.refl (position : SourcePosition) : position.AtMost position := Or.inr ⟨rfl, Nat.le_refl _⟩

theorem AtMost.trans {first second third : SourcePosition} (h : first.AtMost second) (h' : second.AtMost third) :
    first.AtMost third := by
  unfold AtMost at *
  omega

/-- Two positions that are one are not apart by a column. -/
theorem not_right_atMost {position : SourcePosition} {columns : Nat} (h : 0 < columns) :
    ¬ (position.right columns).AtMost position := by
  unfold AtMost right
  simp only
  omega

theorem atMost_right (position : SourcePosition) (columns : Nat) : position.AtMost (position.right columns) :=
  Or.inr ⟨rfl, Nat.le_add_right _ _⟩

theorem atMost_nextLine (position : SourcePosition) : position.AtMost position.nextLine :=
  Or.inl (Nat.lt_succ_self _)

theorem right_right (position : SourcePosition) (first second : Nat) :
    (position.right first).right second = position.right (first + second) := by
  simp [right, Nat.add_assoc]

@[simp] theorem right_zero (position : SourcePosition) : position.right 0 = position := rfl

end SourcePosition

/-- Half-open source range. -/
structure SourceSpan where
  sourceFile : String
  sourceStart : SourcePosition
  sourceEnd : SourcePosition
  deriving DecidableEq, Repr

/-- A report of the lexical stage; all of them are errors. -/
structure LexicalDiagnostic where
  diagnosticCode : String
  diagnosticSpan : SourceSpan
  diagnosticMessage : String
  deriving DecidableEq, Repr

/-- The character classes that follow Unicode, with what they are on ASCII, and how a character is shown. -/
structure CharacterClasses where
  isAlpha : Char → Bool
  isAlphaNum : Char → Bool
  isSpace : Char → Bool
  showCharacter : Char → String
  isAlpha_ascii : ∀ character, character.toNat < 128 → isAlpha character = character.isAlpha
  isAlphaNum_ascii : ∀ character, character.toNat < 128 → isAlphaNum character = character.isAlphanum
  isSpace_ascii : ∀ character, character.toNat < 128 →
    isSpace character = (character.toNat = 32 || (9 ≤ character.toNat && character.toNat ≤ 13))

def isHexDigit (character : Char) : Bool :=
  character.isDigit || ('a' ≤ character && character ≤ 'f') || ('A' ≤ character && character ≤ 'F')

/-- The value of a hexadecimal digit. -/
def digitToInt (character : Char) : Nat :=
  if character.isDigit then character.toNat - 48
  else if 'a' ≤ character then character.toNat - 97 + 10
  else character.toNat - 65 + 10

/-! ## Text in front of an input -/

theorem takeWhile_eq_replicate (character : Char) (input : SourceText) :
    input.takeWhile (· = character)
      = List.replicate (input.takeWhile (· = character)).length character :=
  List.eq_replicate_iff.mpr ⟨rfl, fun other hmem => by simpa using List.mem_takeWhile_imp hmem⟩

/-- What follows the given text, when the input begins with it. -/
def stripPrefix : SourceText → SourceText → Option SourceText
  | [], input => some input
  | expected :: more, character :: remaining =>
      if character = expected then stripPrefix more remaining else none
  | _ :: _, [] => none

variable {input remaining lineBreak : SourceText}

theorem stripPrefix_eq_some {text : SourceText} :
    stripPrefix text input = some remaining ↔ input = text ++ remaining := by
  induction text generalizing input with
  | nil => simp [stripPrefix]
  | cons expected more ih =>
      cases input with
      | nil => simp [stripPrefix]
      | cons character rest =>
          rw [stripPrefix]
          split
          · next heq =>
              rw [ih, heq]
              simp
          · next hne =>
              simp [hne]

def isLineBreak (character : Char) : Bool := character = carriageReturn || character = lineFeed

/-- The line break an input begins with, and what follows it. -/
def splitLineBreak : SourceText → Option (SourceText × SourceText)
  | [] => none
  | character :: remaining =>
      if character = carriageReturn then
        if remaining.head? = some lineFeed then some ([carriageReturn, lineFeed], remaining.tail)
        else some ([carriageReturn], remaining)
      else if character = lineFeed then some ([lineFeed], remaining)
      else none

theorem splitLineBreak_eq_none {character : Char} :
    splitLineBreak (character :: remaining) = none ↔ isLineBreak character = false := by
  simp only [splitLineBreak, isLineBreak]
  split
  · next heq => split <;> simp [heq]
  · split <;> simp_all

/-- A line break is in front of the input, and it is never one half of a longer one. -/
theorem splitLineBreak_eq_some (h : splitLineBreak input = some (lineBreak, remaining)) :
    input = lineBreak ++ remaining ∧ lineBreak ≠ [] ∧
      (lineBreak.getLast? = some carriageReturn → remaining.head? ≠ some lineFeed) := by
  have hdiffer : lineFeed ≠ carriageReturn := by decide
  cases input with
  | nil => cases h
  | cons character rest =>
      simp only [splitLineBreak] at h
      split at h
      · next heq =>
          split at h
          · next hfeed =>
              cases h
              cases rest with
              | nil => cases hfeed
              | cons next more =>
                  cases hfeed
                  exact ⟨by rw [heq]; rfl, nofun, fun hlast => absurd (Option.some.inj hlast) hdiffer⟩
          · next hfeed =>
              cases h
              exact ⟨by rw [heq]; rfl, nofun, fun _ => hfeed⟩
      · split at h
        · next heq =>
            cases h
            exact ⟨by rw [heq]; rfl, nofun, fun hlast => absurd (Option.some.inj hlast) hdiffer⟩
        · cases h

/-- A line break is one by itself. -/
theorem splitLineBreak_self
    (h : splitLineBreak input = some (lineBreak, remaining)) : splitLineBreak lineBreak = some (lineBreak, []) := by
  cases input with
  | nil => cases h
  | cons character rest =>
      simp only [splitLineBreak] at h
      split at h
      · split at h
        · cases h
          rfl
        · cases h
          rfl
      · split at h
        · cases h
          rfl
        · cases h

/-- More input does not change the line break in front, unless it completes it. -/
theorem splitLineBreak_append {more : SourceText} (h : splitLineBreak input = some (lineBreak, remaining))
    (hmore : remaining = [] → lineBreak.getLast? = some carriageReturn → more.head? ≠ some lineFeed) :
    splitLineBreak (input ++ more) = some (lineBreak, remaining ++ more) := by
  cases input with
  | nil => cases h
  | cons character rest =>
      simp only [splitLineBreak, List.cons_append] at h ⊢
      split at h
      · next heq =>
          rw [if_pos heq]
          cases rest with
          | nil =>
              cases h
              exact if_neg (hmore rfl rfl)
          | cons next others =>
              by_cases hfeed : some next = some lineFeed
              · rw [if_pos (show (next :: others).head? = some lineFeed from hfeed)] at h
                cases h
                exact if_pos hfeed
              · rw [if_neg (show ¬ (next :: others).head? = some lineFeed from hfeed)] at h
                cases h
                exact if_neg hfeed
      · next hne =>
          rw [if_neg hne]
          split at h
          · next heq =>
              cases h
              rw [if_pos heq]
          · cases h

end Tala.Syntax
