import Mathlib.Data.List.Basic

/-!
# `Library.Rendering` — texts from which a value can be read

A rendering is unambiguous at a value if a text that begins with it cannot begin with the rendering of
another one, and says where the rendering ends (`Determines`). Numbers end before the first character that
is no digit; sequences are counted, closed or separated. What is read is a view of the value, so a
rendering may leave parts of it out.
-/

namespace Tala.Library.Rendering

variable {σ α β : Type}

/-- Of two texts that begin with renderings, `a`'s and another's, and go on with rests of the given kind:
if they are equal, then so are the views of the values and the rests. -/
def Determines (render : α → List σ) (view : α → β) (domain : α → Prop) (follows : List σ → Prop)
    (a : α) : Prop :=
  ∀ b s t, domain b → follows s → follows t → render a ++ s = render b ++ t → view a = view b ∧ s = t

/-- A rendering that tells where it ends, whatever follows. -/
def Anything (_ : List σ) : Prop := True

def StartsWithout (p : σ → Prop) (text : List σ) : Prop := ∀ c rest, text = c :: rest → ¬ p c

theorem Determines.eq {render : α → List σ} {view : α → β} {domain : α → Prop} {follows : List σ → Prop}
    {a b : α} (h : Determines render view domain follows a) (hb : domain b) (hend : follows [])
    (heq : render a = render b) : view a = view b :=
  (h b [] [] hb hend hend (by rw [heq])).1

/-! ## Numbers -/

def NoDigit : List Char → Prop := StartsWithout fun c => c.isDigit = true

theorem noDigit_cons {c : Char} (h : c.isDigit = false) (rest : List Char) : NoDigit (c :: rest) := by
  intro c' rest' heq
  cases heq
  simp [h]

theorem noDigit_nil : NoDigit [] := by
  intro c rest heq
  cases heq

theorem takeWhile_toDigits (n : Nat) {rest : List Char} (hrest : NoDigit rest) :
    (Nat.toDigits 10 n ++ rest).takeWhile Char.isDigit = Nat.toDigits 10 n := by
  rw [List.takeWhile_append_of_pos (fun c hc => Nat.isDigit_of_mem_toDigits (by omega) (by omega) hc)]
  cases rest with
  | nil => simp
  | cons c rest =>
      have hc : c.isDigit = false := by simpa using hrest c rest rfl
      rw [List.takeWhile_cons_of_neg (by simp [hc]), List.append_nil]

/-- A number ends before the first character that is no digit. -/
theorem toDigits_append_inj {m n : Nat} {s t : List Char} (hs : NoDigit s) (ht : NoDigit t)
    (h : Nat.toDigits 10 m ++ s = Nat.toDigits 10 n ++ t) : m = n ∧ s = t := by
  have hdigits : Nat.toDigits 10 m = Nat.toDigits 10 n := by
    rw [← takeWhile_toDigits m hs, h, takeWhile_toDigits n ht]
  have hvalue := congrArg (fun digits => Nat.ofDigitChars 10 digits 0) hdigits
  simp only [Nat.ofDigitChars_ten_toDigits] at hvalue
  subst hvalue
  exact ⟨rfl, List.append_cancel_left h⟩

/-- Integers, with a sign before the digits of a negative one. -/
def decimal : Int → List Char
  | .ofNat value => Nat.toDigits 10 value
  | .negSucc value => '-' :: Nat.toDigits 10 (value + 1)

theorem toDigits_opens (n : Nat) : ∃ c rest, Nat.toDigits 10 n = c :: rest ∧ c.isDigit = true := by
  cases hdigits : Nat.toDigits 10 n with
  | nil => exact absurd hdigits Nat.toDigits_ne_nil
  | cons c rest =>
      have hmem : c ∈ Nat.toDigits 10 n := by
        rw [hdigits]
        exact List.mem_cons_self
      exact ⟨c, rest, rfl, Nat.isDigit_of_mem_toDigits (by omega) (by omega) hmem⟩

theorem toDigits_ne_minus {n : Nat} {s t : List Char} : Nat.toDigits 10 n ++ s ≠ '-' :: t := by
  intro h
  obtain ⟨c, rest, hopen, hdigit⟩ := toDigits_opens n
  rw [hopen] at h
  rw [(List.cons.inj h).1] at hdigit
  cases hdigit

theorem decimal_append_inj {m n : Int} {s t : List Char} (hs : NoDigit s) (ht : NoDigit t)
    (h : decimal m ++ s = decimal n ++ t) : m = n ∧ s = t := by
  cases m with
  | ofNat m =>
      cases n with
      | ofNat n =>
          obtain ⟨rfl, hend⟩ := toDigits_append_inj hs ht h
          exact ⟨rfl, hend⟩
      | negSucc n => exact absurd h toDigits_ne_minus
  | negSucc m =>
      cases n with
      | ofNat n => exact absurd h.symm toDigits_ne_minus
      | negSucc n =>
          obtain ⟨heq, hend⟩ := toDigits_append_inj hs ht (List.cons.inj h).2
          obtain rfl := Nat.succ.inj heq
          exact ⟨rfl, hend⟩

/-! ## Sequences -/

section Sequences

variable {render : α → List σ} {view : α → β} {domain : α → Prop}

/-- Two sequences of the same length, one rendering after the other. -/
theorem flatMap_append_inj {as bs : List α} {s t : List σ} (hlength : as.length = bs.length)
    (hread : ∀ a ∈ as, Determines render view domain Anything a) (hdomain : ∀ b ∈ bs, domain b)
    (h : as.flatMap render ++ s = bs.flatMap render ++ t) : as.map view = bs.map view ∧ s = t := by
  induction as generalizing bs with
  | nil =>
      cases bs with
      | nil => exact ⟨rfl, h⟩
      | cons b bs => cases hlength
  | cons a as ih =>
      cases bs with
      | nil => cases hlength
      | cons b bs =>
          simp only [List.flatMap_cons, List.append_assoc] at h
          obtain ⟨hhead, hrest⟩ :=
            hread a List.mem_cons_self b _ _ (hdomain b List.mem_cons_self) trivial trivial h
          obtain ⟨htail, hend⟩ := ih (Nat.succ.inj hlength)
            (fun a' ha' => hread a' (List.mem_cons_of_mem a ha'))
            (fun b' hb' => hdomain b' (List.mem_cons_of_mem b hb')) hrest
          rw [List.map_cons, List.map_cons, hhead, htail]
          exact ⟨rfl, hend⟩

/-- A sequence that is closed by a character with which no item begins. -/
theorem flatMap_close_inj {close : σ} {as bs : List α} {s t : List σ}
    (hopens : ∀ a, ∃ c rest, render a = c :: rest ∧ c ≠ close)
    (hread : ∀ a ∈ as, Determines render view domain Anything a) (hdomain : ∀ b ∈ bs, domain b)
    (h : as.flatMap render ++ close :: s = bs.flatMap render ++ close :: t) :
    as.map view = bs.map view ∧ s = t := by
  induction as generalizing bs with
  | nil =>
      cases bs with
      | nil => exact ⟨rfl, (List.cons.inj h).2⟩
      | cons b bs =>
          obtain ⟨c, rest, hopen, hne⟩ := hopens b
          rw [List.flatMap_cons, hopen] at h
          exact absurd (List.cons.inj h).1.symm hne
  | cons a as ih =>
      cases bs with
      | nil =>
          obtain ⟨c, rest, hopen, hne⟩ := hopens a
          rw [List.flatMap_cons, hopen] at h
          exact absurd (List.cons.inj h).1 hne
      | cons b bs =>
          simp only [List.flatMap_cons, List.append_assoc] at h
          obtain ⟨hhead, hrest⟩ :=
            hread a List.mem_cons_self b _ _ (hdomain b List.mem_cons_self) trivial trivial h
          obtain ⟨htail, hend⟩ := ih (fun a' ha' => hread a' (List.mem_cons_of_mem a ha'))
            (fun b' hb' => hdomain b' (List.mem_cons_of_mem b hb')) hrest
          rw [List.map_cons, List.map_cons, hhead, htail]
          exact ⟨rfl, hend⟩

/-- Texts with a separator between each two of them. -/
def intercalate (separator : List σ) : List (List σ) → List σ
  | [] => []
  | [text] => text
  | text :: next :: others => text ++ separator ++ intercalate separator (next :: others)

/-- A sequence with separators, before a rest that does not begin with one. The items are read up to a
separator or to such a rest. -/
theorem intercalate_append_inj {separator : σ} {follows : List σ → Prop} {as bs : List α} {s t : List σ}
    (hempty : as = [] ↔ bs = [])
    (hread : ∀ a ∈ as, Determines render view domain (fun rest => (∃ tail, rest = separator :: tail) ∨ follows rest) a)
    (hdomain : ∀ b ∈ bs, domain b) (hfollows : ∀ tail, ¬ follows (separator :: tail))
    (hs : follows s) (ht : follows t)
    (h : intercalate [separator] (as.map render) ++ s = intercalate [separator] (bs.map render) ++ t) :
    as.map view = bs.map view ∧ s = t := by
  induction as generalizing bs with
  | nil =>
      obtain rfl := hempty.mp rfl
      exact ⟨rfl, h⟩
  | cons a as ih =>
      cases bs with
      | nil => cases hempty.mpr rfl
      | cons b bs =>
          have hb := hdomain b List.mem_cons_self
          have ha := hread a List.mem_cons_self
          cases as with
          | nil =>
              cases bs with
              | nil =>
                  obtain ⟨hhead, hend⟩ := ha b s t hb (Or.inr hs) (Or.inr ht) h
                  exact ⟨congrArg (· :: []) hhead, hend⟩
              | cons b' bs =>
                  simp only [List.map_cons, List.map_nil, intercalate, List.append_assoc] at h
                  obtain ⟨_, hrest⟩ := ha b _ _ hb (Or.inr hs) (Or.inl ⟨_, rfl⟩) h
                  rw [hrest] at hs
                  exact absurd hs (hfollows _)
          | cons a' as =>
              cases bs with
              | nil =>
                  simp only [List.map_cons, List.map_nil, intercalate, List.append_assoc] at h
                  obtain ⟨_, hrest⟩ := ha b _ _ hb (Or.inl ⟨_, rfl⟩) (Or.inr ht) h
                  rw [← hrest] at ht
                  exact absurd ht (hfollows _)
              | cons b' bs =>
                  simp only [List.map_cons, intercalate, List.append_assoc] at h
                  obtain ⟨hhead, hrest⟩ := ha b _ _ hb (Or.inl ⟨_, rfl⟩) (Or.inl ⟨_, rfl⟩) h
                  have hpair : (a' :: as = [] ↔ b' :: bs = []) := by simp
                  obtain ⟨htail, hend⟩ := ih hpair
                    (fun item hitem => hread item (List.mem_cons_of_mem a hitem))
                    (fun item hitem => hdomain item (List.mem_cons_of_mem b hitem))
                    (by simpa [List.map_cons] using hrest)
                  rw [List.map_cons, hhead, htail]
                  exact ⟨rfl, hend⟩

end Sequences

end Tala.Library.Rendering
