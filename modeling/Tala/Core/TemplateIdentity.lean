import Tala.Core.Template
import Tala.Library.Rendering

/-!
# `Core.TemplateIdentity` — the text that stands for a type

`renderTemplateIdentity` is the key under which types are cached. A part of a name is preceded by its
length, and the rest of the text says what it is before it says anything else, so the text of a type whose
names are not empty can be read in one way only (`renderTemplateIdentity_determines`).
-/

namespace Tala.Core

open Tala Tala.Library.Rendering

def renderSymbol (name : ResolvedName) : List Char :=
  decimal name.resolvedSymbol ++ ':' :: Nat.toDigits 10 name.resolvedSpelling.length
    ++ ':' :: name.resolvedSpelling.toList

/-- Length-prefixing keeps dots and angle brackets in an identifier from making two identities collide. -/
def renderPart (part : Identifier) : List Char := Nat.toDigits 10 part.length ++ ':' :: part.toList

def renderName (name : QualifiedName) : List Char := intercalate ['.'] (name.map renderPart)

def renderValue : TemplateValue → List Char
  | .integerTemplateValue value => ['i', ':'] ++ decimal value
  | .booleanTemplateValue value => ['b', ':'] ++ if value then ['t', 'r', 'u', 'e'] else ['f', 'a', 'l', 's', 'e']
  | .characterTemplateValue scalar => ['c', ':'] ++ decimal scalar
  | .templateValueParameter name => ['p', 'a', 'r', 'a', 'm', 'e', 't', 'e', 'r', '$'] ++ renderSymbol name

mutual

/-- A deterministic, length-delimited identity of a type. -/
def renderTemplateIdentity : Ty → List Char
  | .namedType name arguments => renderName name ++ renderArguments arguments
  | .functionType parameters result =>
      ['f', 'n', '('] ++ intercalate [','] (renderParameters parameters) ++ [')', '-', '>']
        ++ renderTemplateIdentity result
  | .typeVariable name => ['t', 'y', 'p', 'e', '$'] ++ renderSymbol name
  | .errorType => ['<', 'e', 'r', 'r', 'o', 'r', '>']

def renderParameters : List Ty → List (List Char)
  | [] => []
  | parameter :: remaining => renderTemplateIdentity parameter :: renderParameters remaining

def renderArguments : List TemplateArgument → List Char
  | [] => []
  | argument :: remaining =>
      '<' :: intercalate [','] (renderArgument argument :: renderEachArgument remaining) ++ ['>']

def renderEachArgument : List TemplateArgument → List (List Char)
  | [] => []
  | argument :: remaining => renderArgument argument :: renderEachArgument remaining

def renderArgument : TemplateArgument → List Char
  | .typeTemplateArgument nested => ['t', 'y', 'p', 'e', ':'] ++ renderTemplateIdentity nested
  | .valueTemplateArgument value => ['v', 'a', 'l', 'u', 'e', ':'] ++ renderValue value

end

/-! ## Names -/

mutual

/-- No named type of it is without a name. -/
def hasNames : Ty → Bool
  | .namedType name arguments => !name.isEmpty && argumentsHaveNames arguments
  | .functionType parameters result => parametersHaveNames parameters && hasNames result
  | .typeVariable _ => true
  | .errorType => true

def parametersHaveNames : List Ty → Bool
  | [] => true
  | parameter :: remaining => hasNames parameter && parametersHaveNames remaining

def argumentHasNames : TemplateArgument → Bool
  | .typeTemplateArgument nested => hasNames nested
  | .valueTemplateArgument _ => true

def argumentsHaveNames : List TemplateArgument → Bool
  | [] => true
  | argument :: remaining => argumentHasNames argument && argumentsHaveNames remaining

end

theorem parametersHaveNames_iff {parameters : List Ty} :
    parametersHaveNames parameters = true ↔ ∀ parameter ∈ parameters, hasNames parameter = true := by
  induction parameters with
  | nil => simp [parametersHaveNames]
  | cons parameter remaining ih => simp [parametersHaveNames, ih]

variable {arguments : List TemplateArgument} {s t : List Char}

theorem argumentsHaveNames_iff :
    argumentsHaveNames arguments = true ↔ ∀ argument ∈ arguments, argumentHasNames argument = true := by
  induction arguments with
  | nil => simp [argumentsHaveNames]
  | cons argument remaining ih => simp [argumentsHaveNames, ih]

theorem renderParameters_eq (parameters : List Ty) :
    renderParameters parameters = parameters.map renderTemplateIdentity := by
  induction parameters with
  | nil => rfl
  | cons parameter remaining ih => rw [renderParameters, ih, List.map_cons]

theorem renderEachArgument_eq (arguments : List TemplateArgument) :
    renderEachArgument arguments = arguments.map renderArgument := by
  induction arguments with
  | nil => rfl
  | cons argument remaining ih => rw [renderEachArgument, ih, List.map_cons]

mutual

/-- A valid type has names. -/
theorem hasNames_of_valid {m : Nat} {path : List Nat} {d : Nat} :
    ∀ valueType : Ty, validateType m path d valueType = [] → hasNames valueType = true
  | .namedType name arguments, h => by
      rw [validateType] at h
      split at h
      · cases h
      · simp only [List.append_eq_nil_iff] at h
        have hname : name.isEmpty = false := by
          by_contra hempty
          have hnone := h.1.1
          rw [validateName, if_pos (by simpa using hempty)] at hnone
          cases hnone
        rw [hasNames, hname, argumentsHaveNames_of_valid arguments h.1.2]
        rfl
  | .functionType parameters result, h => by
      rw [validateType] at h
      split at h
      · cases h
      · rw [List.append_eq_nil_iff] at h
        rw [hasNames, parametersHaveNames_of_valid parameters h.1, hasNames_of_valid result h.2]
        rfl
  | .typeVariable _, _ => rfl
  | .errorType, _ => rfl

theorem parametersHaveNames_of_valid {m : Nat} {path : List Nat} {d i : Nat} :
    ∀ parameters : List Ty, validateParameters m path d i parameters = [] →
      parametersHaveNames parameters = true
  | [], _ => rfl
  | parameter :: remaining, h => by
      rw [validateParameters, List.append_eq_nil_iff] at h
      rw [parametersHaveNames, hasNames_of_valid parameter h.1, parametersHaveNames_of_valid remaining h.2]
      rfl

theorem argumentsHaveNames_of_valid {m : Nat} {path : List Nat} {d i : Nat} :
    ∀ arguments : List TemplateArgument, validateArguments m path d i arguments = [] →
      argumentsHaveNames arguments = true
  | [], _ => rfl
  | .typeTemplateArgument nested :: remaining, h => by
      rw [validateArguments, List.append_eq_nil_iff, validateArgument] at h
      rw [argumentsHaveNames, argumentHasNames, hasNames_of_valid nested h.1,
        argumentsHaveNames_of_valid remaining h.2]
      rfl
  | .valueTemplateArgument value :: remaining, h => by
      rw [validateArguments, List.append_eq_nil_iff] at h
      rw [argumentsHaveNames, argumentHasNames, argumentsHaveNames_of_valid remaining h.2]
      rfl

end

/-! ## Reading an identity -/

/-- What may stand after the identity of a type. -/
def Ends (rest : List Char) : Prop :=
  rest = [] ∨ ∃ c tail, rest = c :: tail ∧ (c = ',' ∨ c = '>' ∨ c = ')')

theorem Ends.noDigit {rest : List Char} (h : Ends rest) : NoDigit rest := by
  rcases h with rfl | ⟨c, tail, rfl, hc⟩
  · exact noDigit_nil
  · apply noDigit_cons
    rcases hc with rfl | rfl | rfl <;> rfl

theorem ends_comma (tail : List Char) : Ends (',' :: tail) := Or.inr ⟨',', tail, rfl, Or.inl rfl⟩

theorem ends_bracket (tail : List Char) : Ends ('>' :: tail) := Or.inr ⟨'>', tail, rfl, Or.inr (Or.inl rfl)⟩

theorem ends_parenthesis (tail : List Char) : Ends (')' :: tail) :=
  Or.inr ⟨')', tail, rfl, Or.inr (Or.inr rfl)⟩

/-- A text after its length. -/
theorem counted_append_inj {x y : String} {s t : List Char}
    (h : Nat.toDigits 10 x.length ++ ':' :: x.toList ++ s = Nat.toDigits 10 y.length ++ ':' :: y.toList ++ t) :
    x = y ∧ s = t := by
  simp only [List.append_assoc, List.cons_append] at h
  obtain ⟨hlength, hrest⟩ := toDigits_append_inj (noDigit_cons rfl _) (noDigit_cons rfl _) h
  rw [← String.length_toList, ← String.length_toList] at hlength
  obtain ⟨htext, hend⟩ := List.append_inj (List.cons.inj hrest).2 hlength
  exact ⟨String.toList_inj.mp htext, hend⟩

theorem renderSymbol_append_inj {x y : ResolvedName}
    (h : renderSymbol x ++ s = renderSymbol y ++ t) : x = y ∧ s = t := by
  simp only [renderSymbol, List.append_assoc, List.cons_append] at h
  obtain ⟨hsymbol, hrest⟩ := decimal_append_inj (noDigit_cons rfl _) (noDigit_cons rfl _) h
  obtain ⟨heq, hend⟩ := @counted_append_inj x.resolvedSpelling y.resolvedSpelling s t (by
    simp only [List.append_assoc, List.cons_append]
    exact (List.cons.inj hrest).2)
  refine ⟨?_, hend⟩
  cases x
  cases y
  cases hsymbol
  cases heq
  rfl

theorem renderName_append_inj {x y : QualifiedName} (hempty : x = [] ↔ y = [])
    (hs : StartsWithout (· = '.') s) (ht : StartsWithout (· = '.') t)
    (h : renderName x ++ s = renderName y ++ t) : x = y ∧ s = t := by
  have hparts := @intercalate_append_inj _ _ _ renderPart id (fun _ => True) '.' (StartsWithout (· = '.'))
    x y s t hempty (fun part _ other s t _ _ _ heq => counted_append_inj heq) (fun _ _ => trivial)
    (fun tail hstart => hstart '.' tail rfl rfl) hs ht h
  rwa [List.map_id, List.map_id] at hparts

theorem renderValue_append_inj {x y : TemplateValue} (hs : Ends s) (ht : Ends t)
    (h : renderValue x ++ s = renderValue y ++ t) : x = y ∧ s = t := by
  cases x with
  | integerTemplateValue x =>
      cases y with
      | integerTemplateValue y =>
          simp only [renderValue, List.append_assoc, List.append_cancel_left_eq] at h
          obtain ⟨rfl, hend⟩ := decimal_append_inj hs.noDigit ht.noDigit h
          exact ⟨rfl, hend⟩
      | booleanTemplateValue y | characterTemplateValue y | templateValueParameter y =>
          simp [renderValue] at h
  | booleanTemplateValue x =>
      cases y with
      | booleanTemplateValue y =>
          cases x <;> cases y <;> simp [renderValue] at h ⊢
          · exact h
          · exact h
      | integerTemplateValue y | characterTemplateValue y | templateValueParameter y =>
          simp [renderValue] at h
  | characterTemplateValue x =>
      cases y with
      | characterTemplateValue y =>
          simp only [renderValue, List.append_assoc, List.append_cancel_left_eq] at h
          obtain ⟨rfl, hend⟩ := decimal_append_inj hs.noDigit ht.noDigit h
          exact ⟨rfl, hend⟩
      | integerTemplateValue y | booleanTemplateValue y | templateValueParameter y =>
          simp [renderValue] at h
  | templateValueParameter x =>
      cases y with
      | templateValueParameter y =>
          simp only [renderValue, List.append_assoc, List.append_cancel_left_eq] at h
          obtain ⟨rfl, hend⟩ := renderSymbol_append_inj h
          exact ⟨rfl, hend⟩
      | integerTemplateValue y | booleanTemplateValue y | characterTemplateValue y =>
          simp [renderValue] at h

/-- The first character tells which kind of type it is. -/
def opens : Ty → Char → Bool
  | .namedType _ _, c => c.isDigit
  | .functionType _ _, c => c = 'f'
  | .typeVariable _, c => c = 't'
  | .errorType, c => c = '<'

theorem renderName_opens {name : QualifiedName} (hname : name ≠ []) :
    ∃ c rest, renderName name = c :: rest ∧ c.isDigit = true := by
  have hpart : ∀ part, ∃ c rest, renderPart part = c :: rest ∧ c.isDigit = true := by
    intro part
    obtain ⟨c, rest, hopen, hdigit⟩ := toDigits_opens part.length
    refine ⟨c, rest ++ ':' :: part.toList, ?_, hdigit⟩
    rw [renderPart, hopen]
    rfl
  cases name with
  | nil => exact absurd rfl hname
  | cons part parts =>
      obtain ⟨c, rest, hopen, hdigit⟩ := hpart part
      cases parts with
      | nil => exact ⟨c, rest, hopen, hdigit⟩
      | cons next others =>
          refine ⟨c, rest ++ ['.'] ++ renderName (next :: others), ?_, hdigit⟩
          show renderPart part ++ ['.'] ++ renderName (next :: others) = _
          rw [hopen]
          rfl

theorem renderTemplateIdentity_opens {valueType : Ty} (h : hasNames valueType = true) :
    ∃ c rest, renderTemplateIdentity valueType = c :: rest ∧ opens valueType c = true := by
  cases valueType with
  | namedType name arguments =>
      rw [hasNames, Bool.and_eq_true] at h
      have hname : name ≠ [] := by
        rintro rfl
        cases h.1
      obtain ⟨c, rest, hopen, hdigit⟩ := renderName_opens hname
      refine ⟨c, rest ++ renderArguments arguments, ?_, hdigit⟩
      rw [renderTemplateIdentity, hopen]
      rfl
  | functionType parameters result => exact ⟨_, _, rfl, rfl⟩
  | typeVariable name => exact ⟨_, _, rfl, rfl⟩
  | errorType => exact ⟨_, _, rfl, rfl⟩

theorem opens_both {a b : Ty} (ha : hasNames a = true) (hb : hasNames b = true)
    (h : renderTemplateIdentity a ++ s = renderTemplateIdentity b ++ t) :
    ∃ c, opens a c = true ∧ opens b c = true := by
  obtain ⟨c, rest, hopen, hc⟩ := renderTemplateIdentity_opens ha
  obtain ⟨c', rest', hopen', hc'⟩ := renderTemplateIdentity_opens hb
  rw [hopen, hopen'] at h
  obtain rfl := (List.cons.inj h).1
  exact ⟨c, hc, hc'⟩

/-- No type begins as a list of parameters ends. -/
theorem parameters_not_closed {parameter : Ty} (h : hasNames parameter = true) (remaining : List Ty) :
    intercalate [','] (renderParameters (parameter :: remaining)) ++ s ≠ ')' :: t := by
  obtain ⟨c, rest, hopen, hc⟩ := renderTemplateIdentity_opens h
  intro heq
  have hhead : c = ')' := by
    cases remaining with
    | nil =>
        rw [renderParameters, renderParameters, intercalate, hopen] at heq
        exact (List.cons.inj heq).1
    | cons next others =>
        rw [renderParameters, renderParameters, intercalate, hopen] at heq
        exact (List.cons.inj heq).1
  subst hhead
  cases parameter <;> cases hc

theorem follows_arguments (hs : Ends s) : StartsWithout (· = '.') (renderArguments arguments ++ s) := by
  rintro c rest heq rfl
  cases arguments with
  | nil =>
      rcases hs with rfl | ⟨c, tail, rfl, hc⟩
      · cases heq
      · obtain rfl := (List.cons.inj heq).1
        rcases hc with hc | hc | hc <;> cases hc
  | cons argument remaining =>
      rw [renderArguments] at heq
      cases heq

/-- What may stand after one of several types, or after the last one. -/
theorem ends_of_separated {rest : List Char} {close : Char} (hclose : close = '>' ∨ close = ')')
    (h : (∃ tail, rest = ',' :: tail) ∨ ∃ tail, rest = close :: tail) : Ends rest := by
  rcases h with ⟨tail, rfl⟩ | ⟨tail, rfl⟩
  · exact ends_comma tail
  · rcases hclose with rfl | rfl
    · exact ends_bracket tail
    · exact ends_parenthesis tail

/-- The arguments are told apart from what follows them by their brackets. -/
theorem renderArguments_append_inj {arguments' : List TemplateArgument}
    (hread : ∀ a ∈ arguments, Determines renderArgument id (fun b => argumentHasNames b = true) Ends a)
    (hnames : argumentsHaveNames arguments' = true) (hs : Ends s) (ht : Ends t)
    (h : renderArguments arguments ++ s = renderArguments arguments' ++ t) :
    arguments = arguments' ∧ s = t := by
  have hnot : ∀ {rest tail : List Char}, Ends rest → rest ≠ '<' :: tail := by
    rintro rest tail (rfl | ⟨c, tail', rfl, hc⟩) heq
    · cases heq
    · obtain rfl := (List.cons.inj heq).1
      rcases hc with hc | hc | hc <;> cases hc
  cases arguments with
  | nil =>
      cases arguments' with
      | nil => exact ⟨rfl, h⟩
      | cons argument' remaining' => exact absurd h (hnot hs)
  | cons argument remaining =>
      cases arguments' with
      | nil => exact absurd h.symm (hnot ht)
      | cons argument' remaining' =>
          simp only [renderArguments, List.cons_append, List.append_assoc, List.nil_append,
            List.cons.injEq, true_and, renderEachArgument_eq, ← List.map_cons] at h
          obtain ⟨heq, hrest⟩ := @intercalate_append_inj _ _ _ renderArgument id
            (fun b => argumentHasNames b = true) ',' (fun rest => ∃ tail, rest = '>' :: tail)
            (argument :: remaining) (argument' :: remaining') _ _ (by simp)
            (fun a ha b s t hb hs ht => hread a ha b s t hb (ends_of_separated (Or.inl rfl) hs)
              (ends_of_separated (Or.inl rfl) ht))
            (argumentsHaveNames_iff.mp hnames) (by rintro tail ⟨_, hfalse⟩; cases hfalse) ⟨_, rfl⟩ ⟨_, rfl⟩ h
          rw [List.map_id, List.map_id] at heq
          exact ⟨heq, (List.cons.inj hrest).2⟩

/-- The parameters are told apart from what follows them by their parentheses. -/
theorem renderParameters_append_inj {parameters parameters' : List Ty}
    (hread : ∀ a ∈ parameters, Determines renderTemplateIdentity id (fun b => hasNames b = true) Ends a)
    (hnames : parametersHaveNames parameters = true) (hnames' : parametersHaveNames parameters' = true)
    (h : intercalate [','] (renderParameters parameters) ++ ')' :: s
      = intercalate [','] (renderParameters parameters') ++ ')' :: t) :
    parameters = parameters' ∧ s = t := by
  rw [parametersHaveNames_iff] at hnames hnames'
  have hempty : parameters = [] ↔ parameters' = [] := by
    constructor
    · rintro rfl
      cases parameters' with
      | nil => rfl
      | cons parameter remaining =>
          exact absurd h.symm (parameters_not_closed (hnames' _ List.mem_cons_self) remaining)
    · rintro rfl
      cases parameters with
      | nil => rfl
      | cons parameter remaining =>
          exact absurd h (parameters_not_closed (hnames _ List.mem_cons_self) remaining)
  rw [renderParameters_eq, renderParameters_eq] at h
  obtain ⟨heq, hrest⟩ := @intercalate_append_inj _ _ _ renderTemplateIdentity id
    (fun b => hasNames b = true) ',' (fun rest => ∃ tail, rest = ')' :: tail) parameters parameters'
    _ _ hempty
    (fun a ha b s t hb hs ht => hread a ha b s t hb (ends_of_separated (Or.inr rfl) hs)
      (ends_of_separated (Or.inr rfl) ht))
    hnames' (by rintro tail ⟨_, hfalse⟩; cases hfalse) ⟨_, rfl⟩ ⟨_, rfl⟩ h
  rw [List.map_id, List.map_id] at heq
  exact ⟨heq, (List.cons.inj hrest).2⟩

mutual

/-- The text of a type whose names are not empty tells the type, and where it ends. -/
theorem renderTemplateIdentity_determines : ∀ a : Ty, hasNames a = true →
    Determines renderTemplateIdentity id (fun b => hasNames b = true) Ends a
  | .namedType name arguments, ha, b, s, t, hb, hs, ht, h => by
      obtain ⟨c, hca, hcb⟩ := opens_both ha hb h
      rw [hasNames, Bool.and_eq_true] at ha
      cases b with
      | namedType name' arguments' =>
          rw [hasNames, Bool.and_eq_true] at hb
          rw [renderTemplateIdentity, renderTemplateIdentity, List.append_assoc, List.append_assoc] at h
          have hempty : name = [] ↔ name' = [] := by
            rw [← List.isEmpty_iff, ← List.isEmpty_iff]
            simp_all
          obtain ⟨rfl, hrest⟩ :=
            renderName_append_inj hempty (follows_arguments hs) (follows_arguments ht) h
          obtain ⟨rfl, hend⟩ := renderArguments_append_inj (renderEachArgument_determines arguments ha.2)
            hb.2 hs ht hrest
          exact ⟨rfl, hend⟩
      | functionType _ _ | typeVariable _ | errorType =>
          simp only [opens, decide_eq_true_eq] at hca hcb
          subst hcb
          cases hca
  | .functionType parameters result, ha, b, s, t, hb, hs, ht, h => by
      obtain ⟨c, hca, hcb⟩ := opens_both ha hb h
      rw [hasNames, Bool.and_eq_true] at ha
      cases b with
      | functionType parameters' result' =>
          rw [hasNames, Bool.and_eq_true] at hb
          simp only [renderTemplateIdentity, List.append_assoc, List.append_cancel_left_eq] at h
          obtain ⟨rfl, hrest⟩ := renderParameters_append_inj
            (renderParameters_determines parameters ha.1) ha.1 hb.1 h
          replace hrest : ['-', '>'] ++ (renderTemplateIdentity result ++ s)
            = ['-', '>'] ++ (renderTemplateIdentity result' ++ t) := hrest
          rw [List.append_cancel_left_eq] at hrest
          obtain ⟨hresult, hend⟩ :=
            renderTemplateIdentity_determines result ha.2 result' s t hb.2 hs ht hrest
          obtain rfl : result = result' := hresult
          exact ⟨rfl, hend⟩
      | namedType _ _ | typeVariable _ | errorType =>
          simp only [opens, decide_eq_true_eq] at hca hcb
          subst hca
          cases hcb
  | .typeVariable name, ha, b, s, t, hb, hs, ht, h => by
      obtain ⟨c, hca, hcb⟩ := opens_both ha hb h
      cases b with
      | typeVariable name' =>
          simp only [renderTemplateIdentity, List.append_assoc, List.append_cancel_left_eq] at h
          obtain ⟨rfl, hend⟩ := renderSymbol_append_inj h
          exact ⟨rfl, hend⟩
      | namedType _ _ | functionType _ _ | errorType =>
          simp only [opens, decide_eq_true_eq] at hca hcb
          subst hca
          cases hcb
  | .errorType, ha, b, s, t, hb, hs, ht, h => by
      obtain ⟨c, hca, hcb⟩ := opens_both ha hb h
      cases b with
      | errorType => exact ⟨rfl, List.append_cancel_left h⟩
      | namedType _ _ | functionType _ _ | typeVariable _ =>
          simp only [opens, decide_eq_true_eq] at hca hcb
          subst hca
          cases hcb

theorem renderParameters_determines : ∀ parameters : List Ty, parametersHaveNames parameters = true →
    ∀ a ∈ parameters, Determines renderTemplateIdentity id (fun b => hasNames b = true) Ends a
  | parameter :: remaining, h, a, ha => by
      rw [parametersHaveNames, Bool.and_eq_true] at h
      rcases List.mem_cons.mp ha with heq | hmem
      · rw [heq]
        exact renderTemplateIdentity_determines parameter h.1
      · exact renderParameters_determines remaining h.2 a hmem

theorem renderEachArgument_determines : ∀ arguments : List TemplateArgument,
    argumentsHaveNames arguments = true → ∀ a ∈ arguments,
      Determines renderArgument id (fun b => argumentHasNames b = true) Ends a
  | .typeTemplateArgument nested :: remaining, h, a, ha => by
      rw [argumentsHaveNames, Bool.and_eq_true] at h
      rcases List.mem_cons.mp ha with rfl | hmem
      · rintro (nested' | value') s t hb hs ht heq
        · simp only [renderArgument, List.append_assoc, List.append_cancel_left_eq] at heq
          obtain ⟨hnested, hend⟩ :=
            renderTemplateIdentity_determines nested h.1 nested' s t hb hs ht heq
          obtain rfl : nested = nested' := hnested
          exact ⟨rfl, hend⟩
        · cases heq
      · exact renderEachArgument_determines remaining h.2 a hmem
  | .valueTemplateArgument value :: remaining, h, a, ha => by
      rw [argumentsHaveNames, Bool.and_eq_true] at h
      rcases List.mem_cons.mp ha with rfl | hmem
      · rintro (nested' | value') s t hb hs ht heq
        · cases heq
        · simp only [renderArgument, List.append_assoc, List.append_cancel_left_eq] at heq
          obtain ⟨rfl, hend⟩ := renderValue_append_inj hs ht heq
          exact ⟨rfl, hend⟩
      · exact renderEachArgument_determines remaining h.2 a hmem

end

/-- Equal identities are those of equal types, if the types are valid. -/
theorem renderTemplateIdentity_injective {m m' : Nat} {a b : Ty} (ha : validateTemplateType m a = [])
    (hb : validateTemplateType m' b = []) (h : renderTemplateIdentity a = renderTemplateIdentity b) : a = b :=
  (renderTemplateIdentity_determines a (hasNames_of_valid a ha)).eq (hasNames_of_valid b hb) (Or.inl rfl) h

end Tala.Core
