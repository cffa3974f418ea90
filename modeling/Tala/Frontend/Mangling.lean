import Tala.Library.Codec
import Tala.Library.Rendering
import Tala.Syntax.Declaration

/-!
# `Frontend.Mangling` — names of specialized types and of their members

A closed type is encoded as ASCII text in which every boundary is tagged, counted or framed by its length;
a member adds its kind, its name, whether it is static, its access and its signature to the name of its
owner. Every encoding says where it ends (`encodeType_inj`), so that a name is read in one way only.
-/

namespace Tala.Frontend.Mangling

open Tala Tala.Syntax Tala.Library.Rendering Tala.Library.Codec

/-! ## Limits and failures -/

structure TemplateMangleLimits where
  maximumMangledTypeDepth : Int
  maximumMangledSymbolLength : Int
  maximumMangledNameParts : Int
  maximumMangledArguments : Int

def defaultTemplateMangleLimits : TemplateMangleLimits := ⟨128, 65535, 1024, 4096⟩

inductive TemplateMangleError
  | invalidTemplateMangleLimits (detail : String)
  | openTypeCannotBeMangled (name : ResolvedName)
  | errorTypeCannotBeMangled
  | emptyQualifiedNameCannotBeMangled
  | emptyIdentifierCannotBeMangled
  | invalidIdentifierScalar (scalar : Int)
  | invalidCharacterTemplateValue (scalar : Int)
  | mangledTypeDepthExceeded (limit : Int)
  | mangledNamePartLimitExceeded (limit actual : Int)
  | mangledArgumentLimitExceeded (limit actual : Int)
  | mangledSymbolLengthExceeded (limit actual : Int)
  | expectedMangleableMemberDeclaration
  deriving DecidableEq, Repr

structure MangledTemplateType where
  mangledTemplateTypeText : List Char
  deriving DecidableEq, Repr

structure MangledTemplateMember where
  mangledMemberSourceSymbol : Int
  mangledMemberSourceName : Identifier
  mangledMemberText : List Char
  deriving DecidableEq, Repr

def validateLimits (limits : TemplateMangleLimits) : Except TemplateMangleError Unit :=
  if limits.maximumMangledTypeDepth < 0 then
    .error (.invalidTemplateMangleLimits "maximum type depth cannot be negative")
  else if limits.maximumMangledSymbolLength ≤ 0 then
    .error (.invalidTemplateMangleLimits "maximum symbol length must be positive")
  else if limits.maximumMangledNameParts ≤ 0 then
    .error (.invalidTemplateMangleLimits "maximum qualified-name part count must be positive")
  else if limits.maximumMangledArguments < 0 then
    .error (.invalidTemplateMangleLimits "maximum argument count cannot be negative")
  else .ok ()

def enforceLength (limits : TemplateMangleLimits) (symbol : List Char) : Except TemplateMangleError Unit :=
  if symbol.length > limits.maximumMangledSymbolLength then
    .error (.mangledSymbolLengthExceeded limits.maximumMangledSymbolLength symbol.length)
  else .ok ()

/-! ## Encodings -/

def count (length : Nat) : List Char := decimal length ++ ['_']

def frame (value : List Char) : List Char := decimal value.length ++ '_' :: value

/-- Six hexadecimal digits, the first ones zero. -/
def scalarHex (scalar : Int) : List Char :=
  let encoded := Nat.toDigits 16 scalar.toNat
  List.replicate (6 - encoded.length) '0' ++ encoded

def validScalar (scalar : Int) : Bool :=
  scalar ≥ 0 && scalar ≤ 0x10ffff && !(scalar ≥ 0xd800 && scalar ≤ 0xdfff)

def encodeCharacter (character : Char) : Except TemplateMangleError (List Char) :=
  let scalar : Int := character.toNat
  if validScalar scalar then .ok (scalarHex scalar) else .error (.invalidIdentifierScalar scalar)

def encodeIdentifier (identifier : Identifier) : Except TemplateMangleError (List Char) :=
  let value := identifier.toList
  if value.isEmpty then .error .emptyIdentifierCannotBeMangled
  else do
    let encoded ← value.mapM encodeCharacter
    .ok (count value.length ++ encoded.flatten)

def encodeQualifiedName (limits : TemplateMangleLimits) (parts : QualifiedName) :
    Except TemplateMangleError (List Char) :=
  if parts.isEmpty then .error .emptyQualifiedNameCannotBeMangled
  else if parts.length > limits.maximumMangledNameParts then
    .error (.mangledNamePartLimitExceeded limits.maximumMangledNameParts parts.length)
  else do
    let encoded ← parts.mapM encodeIdentifier
    .ok (count encoded.length ++ encoded.flatMap frame)

def encodeValue : TemplateValue → Except TemplateMangleError (List Char)
  | .integerTemplateValue integer =>
      .ok (if integer < 0 then ['I', 'N'] ++ decimal |integer| ++ ['_'] else ['I', 'P'] ++ decimal integer ++ ['_'])
  | .booleanTemplateValue boolean => .ok (if boolean then ['B', '1'] else ['B', '0'])
  | .characterTemplateValue scalar =>
      if validScalar scalar then .ok ('C' :: scalarHex scalar) else .error (.invalidCharacterTemplateValue scalar)
  | .templateValueParameter name => .error (.openTypeCannotBeMangled name)

mutual

def encodeType (limits : TemplateMangleLimits) (depth : Int) (valueType : Ty) :
    Except TemplateMangleError (List Char) :=
  if depth > limits.maximumMangledTypeDepth then
    .error (.mangledTypeDepthExceeded limits.maximumMangledTypeDepth)
  else
    match valueType with
    | .namedType name arguments => do
        let encodedName ← encodeQualifiedName limits name
        if arguments.length > limits.maximumMangledArguments then
          .error (.mangledArgumentLimitExceeded limits.maximumMangledArguments arguments.length)
        else
          let encodedArguments ← encodeArguments limits (depth + 1) arguments
          .ok ('N' :: encodedName ++ ('A' :: count encodedArguments.length ++ encodedArguments.flatten))
    | .functionType parameters result =>
        if parameters.length > limits.maximumMangledArguments then
          .error (.mangledArgumentLimitExceeded limits.maximumMangledArguments parameters.length)
        else do
          let encodedParameters ← encodeTypes limits (depth + 1) parameters
          let encodedResult ← encodeType limits (depth + 1) result
          .ok ('F' :: count encodedParameters.length ++ encodedParameters.flatMap frame ++ ('R' :: frame encodedResult))
    | .typeVariable name => .error (.openTypeCannotBeMangled name)
    | .errorType => .error .errorTypeCannotBeMangled
termination_by structural valueType

def encodeTypes (limits : TemplateMangleLimits) (depth : Int) : List Ty →
    Except TemplateMangleError (List (List Char))
  | [] => .ok []
  | valueType :: rest => do
      let encoded ← encodeType limits depth valueType
      let others ← encodeTypes limits depth rest
      .ok (encoded :: others)
termination_by structural types => types

def encodeArgument (limits : TemplateMangleLimits) (depth : Int) : TemplateArgument →
    Except TemplateMangleError (List Char)
  | .typeTemplateArgument nested => do
      let encoded ← encodeType limits depth nested
      .ok ('T' :: frame encoded)
  | .valueTemplateArgument value => do
      let encoded ← encodeValue value
      .ok ('V' :: frame encoded)
termination_by structural argument => argument

def encodeArguments (limits : TemplateMangleLimits) (depth : Int) : List TemplateArgument →
    Except TemplateMangleError (List (List Char))
  | [] => .ok []
  | argument :: rest => do
      let encoded ← encodeArgument limits depth argument
      let others ← encodeArguments limits depth rest
      .ok (encoded :: others)
termination_by structural arguments => arguments

end

/-! ## Names -/

def mangleTemplateType (limits : TemplateMangleLimits) (valueType : Ty) :
    Except TemplateMangleError MangledTemplateType := do
  validateLimits limits
  let payload ← encodeType limits 0 valueType
  let symbol := ['_', 'T', 'A', 'T', '1', '_', 'T'] ++ payload
  enforceLength limits symbol
  .ok ⟨symbol⟩

def accessTag : Access → List Char
  | .defaultAccess => ['A', '0']
  | .publicAccess => ['A', '1']
  | .privateAccess => ['A', '2']
  | .internalAccess => ['A', '3']
  | .protectedAccess => ['A', '4']

def staticTag (isStatic : Bool) : List Char := if isStatic then ['S', '1'] else ['S', '0']

def mangleTemplateMember (limits : TemplateMangleLimits) (owner : Ty) (member : Declaration ResolvedName) :
    Except TemplateMangleError MangledTemplateMember := do
  let ownerName ← mangleTemplateType limits owner
  match member with
  | .functionDeclaration _ target annotated _ _ _ isStatic access =>
      let name ← encodeIdentifier target.resolvedSpelling
      let signature ← encodeType limits 0 annotated
      let symbol := ownerName.mangledTemplateTypeText ++ ['_', 'M'] ++ name ++ ['_'] ++ staticTag isStatic
        ++ accessTag access ++ ['_', 'Y'] ++ signature
      enforceLength limits symbol
      .ok ⟨target.resolvedSymbol, target.resolvedSpelling, symbol⟩
  | .typeDeclaration _ target annotated _ =>
      let name ← encodeIdentifier target.resolvedSpelling
      let encodedSignature ← encodeType limits 0 annotated
      let symbol := ownerName.mangledTemplateTypeText ++ ['_', 'N'] ++ name ++ ['_', 'Y'] ++ encodedSignature
      enforceLength limits symbol
      .ok ⟨target.resolvedSymbol, target.resolvedSpelling, symbol⟩
  | .templateTypeDeclaration _ _ _ _ _ => .error .expectedMangleableMemberDeclaration
  | .enumDeclaration _ _ _ _ => .error .expectedMangleableMemberDeclaration

/-- The alphabet of an emitted symbol. -/
def validMangledCharacter (character : Char) : Bool :=
  ('a' ≤ character && character ≤ 'z') || ('A' ≤ character && character ≤ 'Z')
    || ('0' ≤ character && character ≤ '9') || character = '_'

def validMangledTemplateSymbol (symbol : List Char) : Bool :=
  ['_', 'T', 'A', 'T', '1', '_'].isPrefixOf symbol && symbol.all validMangledCharacter

/-! ## Texts that say where they end -/

theorem noDigit_underscore (rest : List Char) : NoDigit ('_' :: rest) := noDigit_cons (by decide) rest

variable {s t : List Char} {character : Char} {identifier : Identifier} {limits : TemplateMangleLimits}

theorem count_inj {m n : Nat} (h : count m ++ s = count n ++ t) : m = n ∧ s = t := by
  have hsplit : decimal m ++ '_' :: s = decimal n ++ '_' :: t := by
    simpa [count] using h
  obtain ⟨hlength, hrest⟩ := decimal_append_inj (noDigit_underscore s) (noDigit_underscore t) hsplit
  exact ⟨Int.ofNat.inj hlength, (List.cons.inj hrest).2⟩

/-- A framed text ends after the length that stands before it. -/
theorem frame_inj {value other : List Char} (h : frame value ++ s = frame other ++ t) :
    value = other ∧ s = t := by
  have hsplit : count value.length ++ (value ++ s) = count other.length ++ (other ++ t) := by
    simpa [frame, count] using h
  obtain ⟨hlength, hrest⟩ := count_inj hsplit
  exact List.append_inj hrest hlength

variable {value : TemplateValue} {values : List (List Char)} {digit : Nat} {scalar : Int}
  {encoded' text : List Char} {parts : QualifiedName}

theorem frames_inj {others : List (List Char)} (hlength : values.length = others.length)
    (h : values.flatMap frame ++ s = others.flatMap frame ++ t) : values = others ∧ s = t := by
  have hread : ∀ value ∈ values, Determines frame id (fun _ => True) Anything value :=
    fun value _ other u v _ _ _ heq => frame_inj heq
  have hboth := flatMap_append_inj hlength hread (fun _ _ => trivial) h
  rw [List.map_id, List.map_id] at hboth
  exact hboth

/-! ## Scalars -/

def hexValue (digit : Char) : Nat := if digit.toNat < 58 then digit.toNat - 48 else digit.toNat - 87

/-- The number that hexadecimal digits write. -/
def fromHex (digits : List Char) : Nat := digits.foldl (fun value digit => 16 * value + hexValue digit) 0

theorem hexValue_digitChar (h : digit < 16) : hexValue digit.digitChar = digit := by
  have hall : ∀ d : Fin 16, hexValue d.val.digitChar = d.val := by decide
  exact hall ⟨digit, h⟩

theorem fromHex_toDigits (n : Nat) : fromHex (Nat.toDigits 16 n) = n := by
  induction n using Nat.strong_induction_on with
  | h n ih =>
      by_cases hsmall : n < 16
      · rw [Nat.toDigits_of_lt_base hsmall]
        show 16 * 0 + hexValue n.digitChar = n
        rw [hexValue_digitChar hsmall]
        omega
      · rw [Nat.toDigits_of_base_le (by decide) (by omega)]
        unfold fromHex at ih ⊢
        rw [List.foldl_append, ih (n / 16) (by omega)]
        show 16 * (n / 16) + hexValue (n % 16).digitChar = n
        rw [hexValue_digitChar (Nat.mod_lt n (by decide))]
        omega

theorem fromHex_zeros (zeros : Nat) (digits : List Char) :
    fromHex (List.replicate zeros '0' ++ digits) = fromHex digits := by
  induction zeros with
  | zero => rfl
  | succ zeros ih => exact ih

theorem fromHex_scalarHex (scalar : Int) : fromHex (scalarHex scalar) = scalar.toNat := by
  show fromHex (List.replicate _ '0' ++ _) = _
  rw [fromHex_zeros, fromHex_toDigits]

theorem validScalar_bounds (h : validScalar scalar = true) : 0 ≤ scalar ∧ scalar ≤ 0x10ffff := by
  simp only [validScalar, Bool.and_eq_true, decide_eq_true_eq] at h
  exact h.1

theorem length_scalarHex (h : validScalar scalar = true) : (scalarHex scalar).length = 6 := by
  obtain ⟨_, hupper⟩ := validScalar_bounds h
  have hlength : (Nat.toDigits 16 scalar.toNat).length ≤ 6 := by
    rw [Nat.length_toDigits_le_iff (by decide) (by decide)]
    omega
  show (List.replicate _ '0' ++ _).length = 6
  rw [List.length_append, List.length_replicate]
  omega

/-- Six digits are read back as the scalar. -/
theorem scalarHex_inj {other : Int} (hscalar : validScalar scalar = true)
    (hother : validScalar other = true) (h : scalarHex scalar ++ s = scalarHex other ++ t) :
    scalar = other ∧ s = t := by
  have hlength : (scalarHex scalar).length = (scalarHex other).length := by
    rw [length_scalarHex hscalar, length_scalarHex hother]
  obtain ⟨hdigits, hrest⟩ := List.append_inj h hlength
  have hvalue := congrArg fromHex hdigits
  rw [fromHex_scalarHex, fromHex_scalarHex] at hvalue
  obtain ⟨hlower, _⟩ := validScalar_bounds hscalar
  obtain ⟨hlower', _⟩ := validScalar_bounds hother
  exact ⟨by omega, hrest⟩

variable {encoded : List Char}

theorem encodeCharacter_ok (h : encodeCharacter character = .ok encoded) :
    validScalar character.toNat = true ∧ encoded = scalarHex character.toNat := by
  unfold encodeCharacter at h
  dsimp only at h
  split at h
  · next hvalid =>
      cases h
      exact ⟨hvalid, rfl⟩
  · cases h

theorem encodeCharacter_inj {other : Char}
    (h : encodeCharacter character = .ok encoded) (h' : encodeCharacter other = .ok encoded')
    (heq : encoded ++ s = encoded' ++ t) : character = other ∧ s = t := by
  obtain ⟨hvalid, rfl⟩ := encodeCharacter_ok h
  obtain ⟨hvalid', rfl⟩ := encodeCharacter_ok h'
  obtain ⟨hscalar, hrest⟩ := scalarHex_inj hvalid hvalid' heq
  exact ⟨Char.toNat_inj.mp (Int.ofNat.inj hscalar), hrest⟩

/-! ## Names -/

section Lists

variable {α ε : Type} {encode : α → Except ε (List Char)} {encoded : List (List Char)}

theorem mapM_cons_ok {a : α} {rest : List α} (h : (a :: rest).mapM encode = .ok encoded) :
    ∃ head tail, encode a = .ok head ∧ rest.mapM encode = .ok tail ∧ encoded = head :: tail := by
  rw [List.mapM_cons] at h
  obtain ⟨head, hhead, h⟩ := bind_eq_ok.mp h
  obtain ⟨tail, htail, h⟩ := bind_eq_ok.mp h
  cases h
  exact ⟨head, tail, hhead, htail, rfl⟩

theorem mapM_length {items : List α} (h : items.mapM encode = .ok encoded) : encoded.length = items.length := by
  induction items generalizing encoded with
  | nil =>
      cases h
      rfl
  | cons item rest ih =>
      obtain ⟨head, tail, _, htail, rfl⟩ := mapM_cons_ok h
      rw [List.length_cons, List.length_cons, ih htail]

/-- Items whose encodings say where they end, one after the other. -/
theorem mapM_flatten_inj
    (hencode : ∀ {a b : α} {x y s t : List Char}, encode a = .ok x → encode b = .ok y → x ++ s = y ++ t →
      a = b ∧ s = t) {items others : List α} {encoded' : List (List Char)}
    (hlength : items.length = others.length) (h : items.mapM encode = .ok encoded)
    (h' : others.mapM encode = .ok encoded') (heq : encoded.flatten ++ s = encoded'.flatten ++ t) :
    items = others ∧ s = t := by
  induction items generalizing others encoded encoded' with
  | nil =>
      cases others with
      | nil =>
          cases h
          cases h'
          exact ⟨rfl, heq⟩
      | cons other rest => cases hlength
  | cons item items ih =>
      cases others with
      | nil => cases hlength
      | cons other others =>
          obtain ⟨head, tail, hhead, htail, rfl⟩ := mapM_cons_ok h
          obtain ⟨head', tail', hhead', htail', rfl⟩ := mapM_cons_ok h'
          rw [List.flatten_cons, List.flatten_cons, List.append_assoc, List.append_assoc] at heq
          obtain ⟨rfl, hrest⟩ := hencode hhead hhead' heq
          obtain ⟨rfl, hend⟩ := ih (Nat.succ.inj hlength) htail htail' hrest
          exact ⟨rfl, hend⟩

/-- Lists that are encoded alike. -/
theorem mapM_inj
    (hencode : ∀ {a b : α} {x y s t : List Char}, encode a = .ok x → encode b = .ok y → x ++ s = y ++ t →
      a = b ∧ s = t) {items others : List α} (h : items.mapM encode = .ok encoded)
    (h' : others.mapM encode = .ok encoded) : items = others := by
  have hlength : items.length = others.length := by rw [← mapM_length h, ← mapM_length h']
  exact (mapM_flatten_inj hencode (s := []) (t := []) hlength h h' rfl).1

end Lists

/-- The parts of an encoded identifier. -/
theorem encodeIdentifier_ok (h : encodeIdentifier identifier = .ok encoded) :
    ∃ digits, identifier.toList.mapM encodeCharacter = .ok digits ∧
      encoded = count identifier.toList.length ++ digits.flatten := by
  unfold encodeIdentifier at h
  dsimp only at h
  split at h
  · cases h
  · obtain ⟨digits, hdigits, h⟩ := bind_eq_ok.mp h
    cases h
    exact ⟨digits, hdigits, rfl⟩

theorem encodeIdentifier_inj {other : Identifier}
    (h : encodeIdentifier identifier = .ok encoded) (h' : encodeIdentifier other = .ok encoded')
    (heq : encoded ++ s = encoded' ++ t) : identifier = other ∧ s = t := by
  obtain ⟨digits, hdigits, rfl⟩ := encodeIdentifier_ok h
  obtain ⟨digits', hdigits', rfl⟩ := encodeIdentifier_ok h'
  rw [List.append_assoc, List.append_assoc] at heq
  obtain ⟨hlength, hrest⟩ := count_inj heq
  obtain ⟨hcharacters, hend⟩ := mapM_flatten_inj encodeCharacter_inj hlength hdigits hdigits' hrest
  exact ⟨String.toList_inj.mp hcharacters, hend⟩

/-- The parts of an encoded qualified name. -/
theorem encodeQualifiedName_ok (h : encodeQualifiedName limits parts = .ok encoded) :
    ∃ texts, parts.mapM encodeIdentifier = .ok texts ∧ encoded = count texts.length ++ texts.flatMap frame := by
  unfold encodeQualifiedName at h
  split at h
  · cases h
  · split at h
    · cases h
    · obtain ⟨texts, htexts, h⟩ := bind_eq_ok.mp h
      cases h
      exact ⟨texts, htexts, rfl⟩

theorem encodeQualifiedName_inj {limits' : TemplateMangleLimits} {others : QualifiedName}
    (h : encodeQualifiedName limits parts = .ok encoded)
    (h' : encodeQualifiedName limits' others = .ok encoded') (heq : encoded ++ s = encoded' ++ t) :
    parts = others ∧ s = t := by
  obtain ⟨texts, htexts, rfl⟩ := encodeQualifiedName_ok h
  obtain ⟨texts', htexts', rfl⟩ := encodeQualifiedName_ok h'
  rw [List.append_assoc, List.append_assoc] at heq
  obtain ⟨hlength, hrest⟩ := count_inj heq
  obtain ⟨rfl, hend⟩ := frames_inj hlength hrest
  exact ⟨mapM_inj encodeIdentifier_inj htexts htexts', hend⟩

/-! ## Values and types -/

def valueTag : TemplateValue → Char
  | .integerTemplateValue _ => 'I'
  | .booleanTemplateValue _ => 'B'
  | .characterTemplateValue _ => 'C'
  | .templateValueParameter _ => 'P'

theorem encodeCharacterValue_ok (h : encodeValue (.characterTemplateValue scalar) = .ok encoded) :
    validScalar scalar = true ∧ encoded = 'C' :: scalarHex scalar := by
  by_cases hvalid : validScalar scalar = true
  · have hok : encodeValue (.characterTemplateValue scalar) = .ok ('C' :: scalarHex scalar) := if_pos hvalid
    rw [hok] at h
    cases h
    exact ⟨hvalid, rfl⟩
  · have herror : encodeValue (.characterTemplateValue scalar) = .error (.invalidCharacterTemplateValue scalar) :=
      if_neg hvalid
    rw [herror] at h
    cases h

theorem encodeValue_opens (h : encodeValue value = .ok encoded) : encoded.head? = some (valueTag value) := by
  cases value with
  | integerTemplateValue integer =>
      cases h
      by_cases hneg : integer < 0
      · rw [if_pos hneg]
        rfl
      · rw [if_neg hneg]
        rfl
  | booleanTemplateValue boolean =>
      cases h
      cases boolean <;> rfl
  | characterTemplateValue scalar =>
      rw [(encodeCharacterValue_ok h).2]
      rfl
  | templateValueParameter name => cases h

theorem encodeInteger_inj {m n : Int} (h : encodeValue (.integerTemplateValue m) = .ok encoded)
    (h' : encodeValue (.integerTemplateValue n) = .ok encoded) : m = n := by
  have htext := Except.ok.inj (h.trans h'.symm)
  have hmagnitude : ∀ {a b : Int} {tag : List Char}, tag ++ decimal a ++ ['_'] = tag ++ decimal b ++ ['_'] → a = b := by
    intro a b tag heq
    rw [List.append_assoc, List.append_assoc] at heq
    exact (decimal_append_inj (noDigit_underscore []) (noDigit_underscore []) (List.append_cancel_left heq)).1
  -- the tag of the sign stands before the magnitude
  by_cases hm : m < 0
  · by_cases hn : n < 0
    · rw [if_pos hm, if_pos hn] at htext
      have habs := hmagnitude htext
      rw [abs_of_neg hm, abs_of_neg hn] at habs
      omega
    · rw [if_pos hm, if_neg hn] at htext
      simp at htext
  · by_cases hn : n < 0
    · rw [if_neg hm, if_pos hn] at htext
      simp at htext
    · rw [if_neg hm, if_neg hn] at htext
      exact hmagnitude htext

theorem encodeValue_inj {other : TemplateValue} (h : encodeValue value = .ok encoded)
    (h' : encodeValue other = .ok encoded) : value = other := by
  have htag : valueTag value = valueTag other :=
    Option.some.inj ((encodeValue_opens h).symm.trans (encodeValue_opens h'))
  cases value with
  | integerTemplateValue m =>
      cases other with
      | integerTemplateValue n => rw [encodeInteger_inj h h']
      | booleanTemplateValue | characterTemplateValue | templateValueParameter => simp [valueTag] at htag
  | booleanTemplateValue boolean =>
      cases other with
      | booleanTemplateValue boolean' =>
          have htext := Except.ok.inj (h.trans h'.symm)
          cases boolean <;> cases boolean' <;> simp at htext <;> rfl
      | integerTemplateValue | characterTemplateValue | templateValueParameter => simp [valueTag] at htag
  | characterTemplateValue scalar =>
      cases other with
      | characterTemplateValue scalar' =>
          obtain ⟨hvalid, rfl⟩ := encodeCharacterValue_ok h
          obtain ⟨hvalid', hdigits⟩ := encodeCharacterValue_ok h'
          have hboth := scalarHex_inj (s := []) (t := []) hvalid hvalid' (by rw [(List.cons.inj hdigits).2])
          rw [hboth.1]
      | integerTemplateValue | booleanTemplateValue | templateValueParameter => simp [valueTag] at htag
  | templateValueParameter name => cases h

section Types

variable {limits limits' : TemplateMangleLimits} {depth depth' : Int}

/-- The parts of an encoded nominal type. -/
theorem encodeType_named {name : QualifiedName} {arguments : List TemplateArgument}
    (h : encodeType limits depth (.namedType name arguments) = .ok encoded) :
    ∃ encodedName encodedArguments, encodeQualifiedName limits name = .ok encodedName ∧
      encodeArguments limits (depth + 1) arguments = .ok encodedArguments ∧
      encoded = 'N' :: (encodedName ++ ('A' :: (count encodedArguments.length ++ encodedArguments.flatten))) := by
  rw [encodeType] at h
  split at h
  · cases h
  · obtain ⟨encodedName, hname, h⟩ := bind_eq_ok.mp h
    split at h
    · cases h
    · obtain ⟨encodedArguments, harguments, h⟩ := bind_eq_ok.mp h
      cases h
      exact ⟨encodedName, encodedArguments, hname, harguments, rfl⟩

/-- The parts of an encoded function type. -/
theorem encodeType_function {parameters : List Ty} {result : Ty}
    (h : encodeType limits depth (.functionType parameters result) = .ok encoded) :
    ∃ encodedParameters encodedResult, encodeTypes limits (depth + 1) parameters = .ok encodedParameters ∧
      encodeType limits (depth + 1) result = .ok encodedResult ∧
      encoded = 'F' :: (count encodedParameters.length ++
        (encodedParameters.flatMap frame ++ ('R' :: frame encodedResult))) := by
  rw [encodeType] at h
  split at h
  · cases h
  · split at h
    · cases h
    · obtain ⟨encodedParameters, hparameters, h⟩ := bind_eq_ok.mp h
      obtain ⟨encodedResult, hresult, h⟩ := bind_eq_ok.mp h
      cases h
      exact ⟨encodedParameters, encodedResult, hparameters, hresult, by simp⟩

variable {valueType : Ty}

theorem encodeTypes_cons {rest : List Ty} {encoded : List (List Char)}
    (h : encodeTypes limits depth (valueType :: rest) = .ok encoded) :
    ∃ head tail, encodeType limits depth valueType = .ok head ∧ encodeTypes limits depth rest = .ok tail ∧
      encoded = head :: tail := by
  rw [encodeTypes] at h
  obtain ⟨head, hhead, h⟩ := bind_eq_ok.mp h
  obtain ⟨tail, htail, h⟩ := bind_eq_ok.mp h
  cases h
  exact ⟨head, tail, hhead, htail, rfl⟩

theorem encodeArguments_cons {argument : TemplateArgument} {rest : List TemplateArgument}
    {encoded : List (List Char)} (h : encodeArguments limits depth (argument :: rest) = .ok encoded) :
    ∃ head tail, encodeArgument limits depth argument = .ok head ∧ encodeArguments limits depth rest = .ok tail ∧
      encoded = head :: tail := by
  rw [encodeArguments] at h
  obtain ⟨head, hhead, h⟩ := bind_eq_ok.mp h
  obtain ⟨tail, htail, h⟩ := bind_eq_ok.mp h
  cases h
  exact ⟨head, tail, hhead, htail, rfl⟩

theorem encodeType_open (h : encodeType limits depth valueType = .ok encoded)
    (hopen : (∃ name, valueType = .typeVariable name) ∨ valueType = .errorType) : False := by
  rcases hopen with ⟨name, rfl⟩ | rfl
  · rw [encodeType] at h
    split at h <;> cases h
  · rw [encodeType] at h
    split at h <;> cases h

mutual

/-- **An encoded type is read in one way**, whatever follows it. -/
theorem encodeType_inj : ∀ (valueType other : Ty) {depth depth' : Int} {encoded encoded' s t : List Char},
    encodeType limits depth valueType = .ok encoded → encodeType limits' depth' other = .ok encoded' →
    encoded ++ s = encoded' ++ t → valueType = other ∧ s = t
  | .namedType name arguments, other, depth, depth', encoded, encoded', s, t, h, h', heq => by
      obtain ⟨encodedName, encodedArguments, hname, harguments, rfl⟩ := encodeType_named h
      cases other with
      | namedType name' arguments' =>
          obtain ⟨encodedName', encodedArguments', hname', harguments', rfl⟩ := encodeType_named h'
          have hparts : encodedName ++ ('A' :: (count encodedArguments.length ++ (encodedArguments.flatten ++ s)))
              = encodedName' ++ ('A' :: (count encodedArguments'.length ++ (encodedArguments'.flatten ++ t))) := by
            simpa using heq
          obtain ⟨rfl, hrest⟩ := encodeQualifiedName_inj hname hname' hparts
          obtain ⟨hlength, hrest⟩ := count_inj (List.cons.inj hrest).2
          obtain ⟨rfl, hend⟩ := encodeArguments_inj arguments arguments' harguments harguments' hlength hrest
          exact ⟨rfl, hend⟩
      | functionType parameters' result' =>
          obtain ⟨_, _, _, _, rfl⟩ := encodeType_function h'
          exact absurd (List.cons.inj heq).1 (by decide)
      | typeVariable name' => exact (encodeType_open h' (.inl ⟨name', rfl⟩)).elim
      | errorType => exact (encodeType_open h' (.inr rfl)).elim
  | .functionType parameters result, other, depth, depth', encoded, encoded', s, t, h, h', heq => by
      obtain ⟨encodedParameters, encodedResult, hparameters, hresult, rfl⟩ := encodeType_function h
      cases other with
      | functionType parameters' result' =>
          obtain ⟨encodedParameters', encodedResult', hparameters', hresult', rfl⟩ := encodeType_function h'
          have hparts : count encodedParameters.length ++ (encodedParameters.flatMap frame ++
                ('R' :: (frame encodedResult ++ s)))
              = count encodedParameters'.length ++ (encodedParameters'.flatMap frame ++
                ('R' :: (frame encodedResult' ++ t))) := by
            simpa using heq
          obtain ⟨hlength, hrest⟩ := count_inj hparts
          obtain ⟨rfl, hreturned⟩ := frames_inj hlength hrest
          obtain ⟨rfl, hend⟩ := frame_inj (List.cons.inj hreturned).2
          obtain rfl := encodeTypes_inj parameters parameters' hparameters hparameters'
          obtain ⟨rfl, _⟩ := encodeType_inj result result' (s := []) (t := []) hresult hresult' rfl
          exact ⟨rfl, hend⟩
      | namedType name' arguments' =>
          obtain ⟨_, _, _, _, rfl⟩ := encodeType_named h'
          exact absurd (List.cons.inj heq).1 (by decide)
      | typeVariable name' => exact (encodeType_open h' (.inl ⟨name', rfl⟩)).elim
      | errorType => exact (encodeType_open h' (.inr rfl)).elim
  | .typeVariable name, other, depth, depth', encoded, encoded', s, t, h, h', heq =>
      (encodeType_open h (.inl ⟨name, rfl⟩)).elim
  | .errorType, other, depth, depth', encoded, encoded', s, t, h, h', heq => (encodeType_open h (.inr rfl)).elim
termination_by structural valueType => valueType

theorem encodeTypes_inj : ∀ (types others : List Ty) {depth depth' : Int} {encoded : List (List Char)},
    encodeTypes limits depth types = .ok encoded → encodeTypes limits' depth' others = .ok encoded → types = others
  | [], others, depth, depth', encoded, h, h' => by
      cases h
      cases others with
      | nil => rfl
      | cons other rest =>
          obtain ⟨_, _, _, _, hcons⟩ := encodeTypes_cons h'
          cases hcons
  | valueType :: types, others, depth, depth', encoded, h, h' => by
      obtain ⟨head, tail, hhead, htail, rfl⟩ := encodeTypes_cons h
      cases others with
      | nil => cases h'
      | cons other rest =>
          obtain ⟨head', tail', hhead', htail', hcons⟩ := encodeTypes_cons h'
          cases hcons
          obtain ⟨rfl, _⟩ := encodeType_inj valueType other (s := []) (t := []) hhead hhead' rfl
          rw [encodeTypes_inj types rest htail htail']
termination_by structural types => types

theorem encodeArgument_inj : ∀ (argument other : TemplateArgument) {depth depth' : Int}
    {encoded encoded' s t : List Char}, encodeArgument limits depth argument = .ok encoded →
    encodeArgument limits' depth' other = .ok encoded' → encoded ++ s = encoded' ++ t → argument = other ∧ s = t
  | .typeTemplateArgument nested, other, depth, depth', encoded, encoded', s, t, h, h', heq => by
      rw [encodeArgument] at h
      obtain ⟨text, htext, h⟩ := bind_eq_ok.mp h
      cases h
      cases other with
      | typeTemplateArgument nested' =>
          rw [encodeArgument] at h'
          obtain ⟨text', htext', h'⟩ := bind_eq_ok.mp h'
          cases h'
          obtain ⟨rfl, hend⟩ := frame_inj (List.cons.inj heq).2
          obtain ⟨rfl, _⟩ := encodeType_inj nested nested' (s := []) (t := []) htext htext' rfl
          exact ⟨rfl, hend⟩
      | valueTemplateArgument value' =>
          rw [encodeArgument] at h'
          obtain ⟨text', _, h'⟩ := bind_eq_ok.mp h'
          cases h'
          exact absurd (List.cons.inj heq).1 (by decide)
  | .valueTemplateArgument value, other, depth, depth', encoded, encoded', s, t, h, h', heq => by
      rw [encodeArgument] at h
      obtain ⟨text, htext, h⟩ := bind_eq_ok.mp h
      cases h
      cases other with
      | valueTemplateArgument value' =>
          rw [encodeArgument] at h'
          obtain ⟨text', htext', h'⟩ := bind_eq_ok.mp h'
          cases h'
          obtain ⟨rfl, hend⟩ := frame_inj (List.cons.inj heq).2
          rw [encodeValue_inj htext htext']
          exact ⟨rfl, hend⟩
      | typeTemplateArgument nested' =>
          rw [encodeArgument] at h'
          obtain ⟨text', _, h'⟩ := bind_eq_ok.mp h'
          cases h'
          exact absurd (List.cons.inj heq).1 (by decide)
termination_by structural argument => argument

theorem encodeArguments_inj : ∀ (arguments others : List TemplateArgument) {depth depth' : Int}
    {encoded encoded' : List (List Char)} {s t : List Char}, encodeArguments limits depth arguments = .ok encoded →
    encodeArguments limits' depth' others = .ok encoded' → encoded.length = encoded'.length →
    encoded.flatten ++ s = encoded'.flatten ++ t → arguments = others ∧ s = t
  | [], others, depth, depth', encoded, encoded', s, t, h, h', hlength, heq => by
      cases h
      cases others with
      | nil =>
          cases h'
          exact ⟨rfl, heq⟩
      | cons other rest =>
          obtain ⟨_, _, _, _, rfl⟩ := encodeArguments_cons h'
          cases hlength
  | argument :: arguments, others, depth, depth', encoded, encoded', s, t, h, h', hlength, heq => by
      obtain ⟨head, tail, hhead, htail, rfl⟩ := encodeArguments_cons h
      cases others with
      | nil =>
          cases h'
          cases hlength
      | cons other rest =>
          obtain ⟨head', tail', hhead', htail', rfl⟩ := encodeArguments_cons h'
          simp only [List.flatten_cons, List.append_assoc] at heq
          obtain ⟨rfl, hrest⟩ := encodeArgument_inj argument other hhead hhead' heq
          obtain ⟨rfl, hend⟩ := encodeArguments_inj arguments rest htail htail' (Nat.succ.inj hlength) hrest
          exact ⟨rfl, hend⟩
termination_by structural arguments => arguments

end

end Types

/-! ## Alphabet -/

/-- Every character is one of an emitted symbol. -/
def Plain (text : List Char) : Prop := ∀ character ∈ text, validMangledCharacter character = true

instance (text : List Char) : Decidable (Plain text) :=
  decidable_of_iff (text.all validMangledCharacter = true) List.all_eq_true

theorem plain_cons (hcharacter : validMangledCharacter character = true)
    (h : Plain text) : Plain (character :: text) :=
  List.forall_mem_cons.mpr ⟨hcharacter, h⟩

theorem plain_append {rest : List Char} (h : Plain text) (hrest : Plain rest) : Plain (text ++ rest) :=
  List.forall_mem_append.mpr ⟨h, hrest⟩

theorem plain_flatten {texts : List (List Char)} (h : ∀ text ∈ texts, Plain text) : Plain texts.flatten := by
  intro character hmem
  obtain ⟨text, htext, hcharacter⟩ := List.mem_flatten.mp hmem
  exact h text htext character hcharacter

theorem plain_digits (n : Nat) : Plain (Nat.toDigits 10 n) := by
  intro character hmem
  have hdigit := Nat.isDigit_of_mem_toDigits (by decide) (by decide) hmem
  simp only [Char.isDigit, Bool.and_eq_true, decide_eq_true_eq] at hdigit
  simp only [validMangledCharacter, Bool.or_eq_true, Bool.and_eq_true, decide_eq_true_eq]
  exact .inl (.inr ⟨hdigit.1, hdigit.2⟩)

theorem plain_decimal {n : Int} (h : 0 ≤ n) : Plain (decimal n) := by
  obtain ⟨value, rfl⟩ := Int.eq_ofNat_of_zero_le h
  exact plain_digits value

theorem plain_count (length : Nat) : Plain (count length) :=
  plain_append (plain_digits length) (plain_cons (by decide) (List.forall_mem_nil _))

theorem plain_frame {value : List Char} (h : Plain value) : Plain (frame value) :=
  plain_append (plain_digits value.length) (plain_cons (by decide) h)

theorem plain_frames (h : ∀ value ∈ values, Plain value) : Plain (values.flatMap frame) := by
  apply plain_flatten
  intro text htext
  obtain ⟨value, hvalue, rfl⟩ := List.mem_map.mp htext
  exact plain_frame (h value hvalue)

theorem validMangledCharacter_hexDigit (h : digit < 16) : validMangledCharacter digit.digitChar = true := by
  have hall : ∀ d : Fin 16, validMangledCharacter d.val.digitChar = true := by decide
  exact hall ⟨digit, h⟩

theorem plain_hexDigits (n : Nat) : Plain (Nat.toDigits 16 n) := by
  induction n using Nat.strong_induction_on with
  | h n ih =>
      by_cases hsmall : n < 16
      · rw [Nat.toDigits_of_lt_base hsmall]
        exact plain_cons (validMangledCharacter_hexDigit hsmall) (List.forall_mem_nil _)
      · rw [Nat.toDigits_of_base_le (by decide) (by omega)]
        exact plain_append (ih (n / 16) (by omega))
          (plain_cons (validMangledCharacter_hexDigit (Nat.mod_lt n (by decide))) (List.forall_mem_nil _))

theorem plain_scalarHex (scalar : Int) : Plain (scalarHex scalar) := by
  apply plain_append
  · intro character hmem
    rw [(List.mem_replicate.mp hmem).2]
    decide
  · exact plain_hexDigits scalar.toNat

theorem plain_mapM {α ε : Type} {encode : α → Except ε (List Char)}
    (hencode : ∀ {a : α} {text : List Char}, encode a = .ok text → Plain text) {items : List α}
    {encoded : List (List Char)} (h : items.mapM encode = .ok encoded) : ∀ text ∈ encoded, Plain text := by
  induction items generalizing encoded with
  | nil =>
      cases h
      exact List.forall_mem_nil _
  | cons item rest ih =>
      obtain ⟨head, tail, hhead, htail, rfl⟩ := mapM_cons_ok h
      exact List.forall_mem_cons.mpr ⟨hencode hhead, ih htail⟩

theorem plain_character (h : encodeCharacter character = .ok encoded) : Plain encoded := by
  rw [(encodeCharacter_ok h).2]
  exact plain_scalarHex _

theorem plain_identifier (h : encodeIdentifier identifier = .ok encoded) : Plain encoded := by
  obtain ⟨digits, hdigits, rfl⟩ := encodeIdentifier_ok h
  exact plain_append (plain_count _) (plain_flatten (plain_mapM plain_character hdigits))

theorem plain_qualifiedName (h : encodeQualifiedName limits parts = .ok encoded) : Plain encoded := by
  obtain ⟨texts, htexts, rfl⟩ := encodeQualifiedName_ok h
  exact plain_append (plain_count _) (plain_frames (plain_mapM plain_identifier htexts))

theorem plain_value (h : encodeValue value = .ok encoded) : Plain encoded := by
  have hclose : Plain ['_'] := plain_cons (by decide) (List.forall_mem_nil _)
  cases value with
  | integerTemplateValue integer =>
      cases h
      by_cases hneg : integer < 0
      · rw [if_pos hneg]
        exact plain_append (plain_append (by decide) (plain_decimal (abs_nonneg integer))) hclose
      · rw [if_neg hneg]
        exact plain_append (plain_append (by decide) (plain_decimal (by omega))) hclose
  | booleanTemplateValue boolean =>
      cases h
      cases boolean <;> decide
  | characterTemplateValue scalar =>
      obtain ⟨_, rfl⟩ := encodeCharacterValue_ok h
      exact plain_cons (by decide) (plain_scalarHex scalar)
  | templateValueParameter name => cases h

section Types

variable {limits : TemplateMangleLimits}

mutual

theorem plain_type : ∀ (valueType : Ty) {depth : Int} {encoded : List Char},
    encodeType limits depth valueType = .ok encoded → Plain encoded
  | .namedType name arguments, depth, encoded, h => by
      obtain ⟨encodedName, encodedArguments, hname, harguments, rfl⟩ := encodeType_named h
      have htexts := plain_arguments arguments harguments
      exact plain_cons (by decide) (plain_append (plain_qualifiedName hname)
        (plain_cons (by decide) (plain_append (plain_count _) (plain_flatten htexts))))
  | .functionType parameters result, depth, encoded, h => by
      obtain ⟨encodedParameters, encodedResult, hparameters, hresult, rfl⟩ := encodeType_function h
      have htexts := plain_types parameters hparameters
      exact plain_cons (by decide) (plain_append (plain_count _) (plain_append (plain_frames htexts)
        (plain_cons (by decide) (plain_frame (plain_type result hresult)))))
  | .typeVariable name, depth, encoded, h => (encodeType_open h (.inl ⟨name, rfl⟩)).elim
  | .errorType, depth, encoded, h => (encodeType_open h (.inr rfl)).elim
termination_by structural valueType => valueType

theorem plain_types : ∀ (types : List Ty) {depth : Int} {encoded : List (List Char)},
    encodeTypes limits depth types = .ok encoded → ∀ text ∈ encoded, Plain text
  | [], depth, encoded, h => by
      cases h
      exact List.forall_mem_nil _
  | valueType :: types, depth, encoded, h => by
      obtain ⟨head, tail, hhead, htail, rfl⟩ := encodeTypes_cons h
      exact List.forall_mem_cons.mpr ⟨plain_type valueType hhead, plain_types types htail⟩
termination_by structural types => types

theorem plain_argument : ∀ (argument : TemplateArgument) {depth : Int} {encoded : List Char},
    encodeArgument limits depth argument = .ok encoded → Plain encoded
  | .typeTemplateArgument nested, depth, encoded, h => by
      rw [encodeArgument] at h
      obtain ⟨text, htext, h⟩ := bind_eq_ok.mp h
      cases h
      exact plain_cons (by decide) (plain_frame (plain_type nested htext))
  | .valueTemplateArgument value, depth, encoded, h => by
      rw [encodeArgument] at h
      obtain ⟨text, htext, h⟩ := bind_eq_ok.mp h
      cases h
      exact plain_cons (by decide) (plain_frame (plain_value htext))
termination_by structural argument => argument

theorem plain_arguments : ∀ (arguments : List TemplateArgument) {depth : Int} {encoded : List (List Char)},
    encodeArguments limits depth arguments = .ok encoded → ∀ text ∈ encoded, Plain text
  | [], depth, encoded, h => by
      cases h
      exact List.forall_mem_nil _
  | argument :: arguments, depth, encoded, h => by
      obtain ⟨head, tail, hhead, htail, rfl⟩ := encodeArguments_cons h
      exact List.forall_mem_cons.mpr ⟨plain_argument argument hhead, plain_arguments arguments htail⟩
termination_by structural arguments => arguments

end

end Types

/-! ## Identity of members -/

/-- What the name of a member tells of it, besides its owner. -/
inductive MemberIdentity
  | method (name : Identifier) (isStatic : Bool) (access : Access) (signature : Ty)
  | nestedType (name : Identifier) (annotated : Ty)

def memberIdentity : Declaration ResolvedName → Option MemberIdentity
  | .functionDeclaration _ target annotated _ _ _ isStatic access =>
      some (.method target.resolvedSpelling isStatic access annotated)
  | .typeDeclaration _ target annotated _ => some (.nestedType target.resolvedSpelling annotated)
  | .templateTypeDeclaration _ _ _ _ _ => none
  | .enumDeclaration _ _ _ _ => none

def symbolPrefix : List Char := ['_', 'T', 'A', 'T', '1', '_', 'T']

/-- What follows the name of the owner. -/
def memberSuffix (name signature : List Char) : MemberIdentity → List Char
  | .method _ isStatic access _ =>
      '_' :: 'M' :: (name ++ ('_' :: (staticTag isStatic ++ (accessTag access ++ ('_' :: 'Y' :: signature)))))
  | .nestedType _ _ => '_' :: 'N' :: (name ++ ('_' :: 'Y' :: signature))

def MemberIdentity.name : MemberIdentity → Identifier
  | .method name _ _ _ => name
  | .nestedType name _ => name

def MemberIdentity.signature : MemberIdentity → Ty
  | .method _ _ _ signature => signature
  | .nestedType _ annotated => annotated

section Names

variable {limits limits' : TemplateMangleLimits}

theorem mangleTemplateType_ok {valueType : Ty} {mangled : MangledTemplateType}
    (h : mangleTemplateType limits valueType = .ok mangled) :
    ∃ payload, encodeType limits 0 valueType = .ok payload ∧
      mangled.mangledTemplateTypeText = symbolPrefix ++ payload := by
  obtain ⟨_, _, h⟩ := bind_eq_ok.mp h
  obtain ⟨payload, hpayload, h⟩ := bind_eq_ok.mp h
  obtain ⟨_, _, h⟩ := bind_eq_ok.mp h
  cases h
  exact ⟨payload, hpayload, rfl⟩

/-- The parts of a mangled member. -/
theorem mangleTemplateMember_ok {owner : Ty} {member : Declaration ResolvedName} {mangled : MangledTemplateMember}
    (h : mangleTemplateMember limits owner member = .ok mangled) :
    ∃ identity payload name signature, memberIdentity member = some identity ∧
      encodeType limits 0 owner = .ok payload ∧ encodeIdentifier identity.name = .ok name ∧
      encodeType limits 0 identity.signature = .ok signature ∧
      mangled.mangledMemberText = symbolPrefix ++ (payload ++ memberSuffix name signature identity) := by
  obtain ⟨ownerName, howner, h⟩ := bind_eq_ok.mp h
  obtain ⟨payload, hpayload, htext⟩ := mangleTemplateType_ok howner
  cases member
  case templateTypeDeclaration | enumDeclaration => cases h
  all_goals
    obtain ⟨name, hname, h⟩ := bind_eq_ok.mp h
    obtain ⟨signature, hsignature, h⟩ := bind_eq_ok.mp h
    obtain ⟨_, _, h⟩ := bind_eq_ok.mp h
    cases h
    refine ⟨_, payload, name, signature, rfl, hpayload, hname, hsignature, ?_⟩
    simp [htext, memberSuffix]

theorem tags_inj {isStatic isStatic' : Bool} {access access' : Access}
    (h : staticTag isStatic ++ (accessTag access ++ s) = staticTag isStatic' ++ (accessTag access' ++ t)) :
    isStatic = isStatic' ∧ access = access' ∧ s = t := by
  have hlength : ∀ flag, (staticTag flag).length = 2 := by decide
  have hlength' : ∀ tag, (accessTag tag).length = 2 := by
    intro tag
    cases tag <;> rfl
  obtain ⟨hstatic, hrest⟩ := List.append_inj h (by rw [hlength, hlength])
  obtain ⟨haccess, hend⟩ := List.append_inj hrest (by rw [hlength', hlength'])
  refine ⟨?_, ?_, hend⟩
  · cases isStatic <;> cases isStatic' <;> first | rfl | simp [staticTag] at hstatic
  · cases access <;> cases access' <;> first | rfl | simp [accessTag] at haccess

theorem memberSuffix_inj {identity identity' : MemberIdentity} {name name' signature signature' : List Char}
    (hname : encodeIdentifier identity.name = .ok name) (hname' : encodeIdentifier identity'.name = .ok name')
    (hsignature : encodeType limits 0 identity.signature = .ok signature)
    (hsignature' : encodeType limits' 0 identity'.signature = .ok signature')
    (h : memberSuffix name signature identity = memberSuffix name' signature' identity') : identity = identity' := by
  cases identity with
  | method text isStatic access annotated =>
      cases identity' with
      | method text' isStatic' access' annotated' =>
          have hinner := (List.cons.inj (List.cons.inj h).2).2
          obtain ⟨hsame, hrest⟩ := encodeIdentifier_inj hname hname' hinner
          obtain ⟨rfl, rfl, hend⟩ := tags_inj (List.cons.inj hrest).2
          have htype := (List.cons.inj (List.cons.inj hend).2).2
          have hsame' := (encodeType_inj _ _ (s := []) (t := []) hsignature hsignature' (by rw [htype])).1
          exact congrArg₂ (MemberIdentity.method · isStatic access ·) hsame hsame'
      | nestedType => exact absurd (List.cons.inj (List.cons.inj h).2).1 (by decide)
  | nestedType text annotated =>
      cases identity' with
      | nestedType text' annotated' =>
          have hinner := (List.cons.inj (List.cons.inj h).2).2
          obtain ⟨hsame, hrest⟩ := encodeIdentifier_inj hname hname' hinner
          have htype := (List.cons.inj (List.cons.inj hrest).2).2
          have hsame' := (encodeType_inj _ _ (s := []) (t := []) hsignature hsignature' (by rw [htype])).1
          exact congrArg₂ MemberIdentity.nestedType hsame hsame'
      | method => exact absurd (List.cons.inj (List.cons.inj h).2).1 (by decide)

theorem validMangledTemplateSymbol_of_plain (h : Plain text) :
    validMangledTemplateSymbol (symbolPrefix ++ text) = true := by
  have hall : (symbolPrefix ++ text).all validMangledCharacter = true :=
    List.all_eq_true.mpr (plain_append (by decide) h)
  show (_ && _) = true
  rw [hall]
  rfl

theorem plain_memberSuffix {identity : MemberIdentity} {name signature : List Char} (hname : Plain name)
    (hsignature : Plain signature) : Plain (memberSuffix name signature identity) := by
  have hend : Plain ('_' :: 'Y' :: signature) := plain_cons (by decide) (plain_cons (by decide) hsignature)
  cases identity with
  | method text isStatic access annotated =>
      have hstatic : Plain (staticTag isStatic) := by cases isStatic <;> decide
      have haccess : Plain (accessTag access) := by cases access <;> decide
      exact plain_cons (by decide) (plain_cons (by decide) (plain_append hname
        (plain_cons (by decide) (plain_append hstatic (plain_append haccess hend)))))
  | nestedType text annotated =>
      exact plain_cons (by decide) (plain_cons (by decide) (plain_append hname hend))

end Names

/-- **Mangling is injective.** Equal names of types are names of the same type, equal names of members are of
members of the same owner, kind, name, access and signature that are both static or both not, no type has the
name of a member, and every name keeps to the alphabet of emitted symbols. -/
theorem mangling_injective :
    (∀ limits limits' valueType other mangled mangled',
      mangleTemplateType limits valueType = .ok mangled → mangleTemplateType limits' other = .ok mangled' →
      mangled.mangledTemplateTypeText = mangled'.mangledTemplateTypeText → valueType = other) ∧
    (∀ limits limits' owner owner' member member' mangled mangled',
      mangleTemplateMember limits owner member = .ok mangled →
      mangleTemplateMember limits' owner' member' = .ok mangled' →
      mangled.mangledMemberText = mangled'.mangledMemberText →
        owner = owner' ∧ memberIdentity member = memberIdentity member') ∧
    (∀ limits limits' valueType owner member mangled mangled',
      mangleTemplateType limits valueType = .ok mangled → mangleTemplateMember limits' owner member = .ok mangled' →
      mangled.mangledTemplateTypeText ≠ mangled'.mangledMemberText) ∧
    (∀ limits valueType mangled, mangleTemplateType limits valueType = .ok mangled →
      validMangledTemplateSymbol mangled.mangledTemplateTypeText = true) ∧
    (∀ limits owner member mangled, mangleTemplateMember limits owner member = .ok mangled →
      validMangledTemplateSymbol mangled.mangledMemberText = true) := by
  refine ⟨?types, ?members, ?apart, ?typeAlphabet, ?memberAlphabet⟩
  case types =>
    intro limits limits' valueType other mangled mangled' h h' heq
    obtain ⟨payload, hpayload, htext⟩ := mangleTemplateType_ok h
    obtain ⟨payload', hpayload', htext'⟩ := mangleTemplateType_ok h'
    rw [htext, htext'] at heq
    have hsame := List.append_cancel_left heq
    exact (encodeType_inj valueType other (s := []) (t := []) hpayload hpayload' (by rw [hsame])).1
  case members =>
    intro limits limits' owner owner' member member' mangled mangled' h h' heq
    obtain ⟨identity, payload, name, signature, hidentity, hpayload, hname, hsignature, htext⟩ :=
      mangleTemplateMember_ok h
    obtain ⟨identity', payload', name', signature', hidentity', hpayload', hname', hsignature', htext'⟩ :=
      mangleTemplateMember_ok h'
    rw [htext, htext'] at heq
    obtain ⟨howner, hsuffix⟩ := encodeType_inj owner owner' hpayload hpayload' (List.append_cancel_left heq)
    rw [hidentity, hidentity', memberSuffix_inj hname hname' hsignature hsignature' hsuffix]
    exact ⟨howner, rfl⟩
  case apart =>
    intro limits limits' valueType owner member mangled mangled' h h' heq
    obtain ⟨payload, hpayload, htext⟩ := mangleTemplateType_ok h
    obtain ⟨identity, payload', name, signature, _, hpayload', _, _, htext'⟩ := mangleTemplateMember_ok h'
    rw [htext, htext'] at heq
    -- a type says where its encoding ends, and a member goes on after that
    have hrest := List.append_cancel_left heq
    rw [← List.append_nil payload] at hrest
    have hsuffix := (encodeType_inj valueType owner hpayload hpayload' hrest).2
    cases identity <;> cases hsuffix
  case typeAlphabet =>
    intro limits valueType mangled h
    obtain ⟨payload, hpayload, htext⟩ := mangleTemplateType_ok h
    rw [htext]
    exact validMangledTemplateSymbol_of_plain (plain_type valueType hpayload)
  case memberAlphabet =>
    intro limits owner member mangled h
    obtain ⟨identity, payload, name, signature, _, hpayload, hname, hsignature, htext⟩ := mangleTemplateMember_ok h
    rw [htext]
    exact validMangledTemplateSymbol_of_plain (plain_append (plain_type owner hpayload)
      (plain_memberSuffix (plain_identifier hname) (plain_type identity.signature hsignature)))

/-- A method without parameters. -/
def nullaryMethod (spelling : Identifier) (result : Ty) : Declaration ResolvedName :=
  .functionDeclaration emptySpan ⟨1, spelling⟩ (.functionType [] result) .autoType [] [] false .publicAccess

theorem exists_of_isOk {ε α : Type} {outcome : Except ε α} (h : outcome.isOk = true) :
    ∃ value, outcome = .ok value := by
  cases outcome with
  | ok value => exact ⟨value, rfl⟩
  | error error => cases h

set_option maxRecDepth 4000 in
/-- Overloads by the type of the result. -/
theorem mangling_injective_overloads :
    ∃ mangled mangled',
      mangleTemplateMember defaultTemplateMangleLimits stringType (nullaryMethod "Max" intType) = .ok mangled ∧
      mangleTemplateMember defaultTemplateMangleLimits stringType (nullaryMethod "Max" boolType) = .ok mangled' ∧
      mangled.mangledMemberText ≠ mangled'.mangledMemberText := by
  obtain ⟨mangled, h⟩ := exists_of_isOk (show (mangleTemplateMember defaultTemplateMangleLimits stringType
    (nullaryMethod "Max" intType)).isOk = true by decide)
  obtain ⟨mangled', h'⟩ := exists_of_isOk (show (mangleTemplateMember defaultTemplateMangleLimits stringType
    (nullaryMethod "Max" boolType)).isOk = true by decide)
  refine ⟨mangled, mangled', h, h', fun heq => ?_⟩
  have hidentity := (mangling_injective.2.1 _ _ _ _ _ _ _ _ h h' heq).2
  have hresult : intType = boolType := by simpa [nullaryMethod, memberIdentity] using hidentity
  exact absurd hresult (by decide)

end Tala.Frontend.Mangling
