import Tala.Frontend.TemplateBinding
import Mathlib.Data.List.Nodup
import Mathlib.Logic.Relation

/-!
# `Frontend.TemplateDefaults` — the defaults of template parameters

A default is resolved along a chain: a name that is bound stands for its argument, the name of a parameter that
is not bound yet for the default of that parameter. What it gives is the default with the parameters in it
replaced by their final arguments, where the names nested in it are those of earlier parameters.
-/

namespace Tala.Frontend

open Tala Tala.Syntax

/-! ## Defaults with the parameters as variables -/

/-- A name in a default, by what it is used as. -/
inductive DefaultName
  | typeName (identifier : Identifier)
  | valueName (identifier : Identifier)
  | templateName (identifier : Identifier)

def DefaultName.identifier : DefaultName → Identifier
  | typeName identifier | valueName identifier | templateName identifier => identifier

def valueNames : TemplateValueSyntax → List DefaultName
  | .templateNameSyntax _ [identifier] => [.valueName identifier]
  | .templateUnarySyntax _ _ operand => valueNames operand
  | .templateBinarySyntax _ _ left right => valueNames left ++ valueNames right
  | _ => []

mutual

/-- The names in a type, at any depth. -/
def typeNames : TypeSyntax → List DefaultName
  | .autoType => []
  | .explicitType identifier => [.typeName identifier]
  | .qualifiedTypeSyntax [identifier] arguments => .templateName identifier :: argumentsNames arguments
  | .qualifiedTypeSyntax _ arguments => argumentsNames arguments
  | .builtinArrayTypeSyntax element => typeNames element
  | .arrayTypeSyntax element => typeNames element
  | .fixedArrayTypeSyntax element size => typeNames element ++ valueNames size
  | .dictionaryTypeSyntax key value => typeNames key ++ typeNames value
  | .callableTypeSyntax parameters result => typesNames parameters ++ typeNames result

def argumentNames : TemplateArgumentSyntax → List DefaultName
  | .templateTypeSyntax type => typeNames type
  | .templateValueArgumentSyntax value => valueNames value

def typesNames : List TypeSyntax → List DefaultName
  | [] => []
  | type :: types => typeNames type ++ typesNames types

def argumentsNames : List TemplateArgumentSyntax → List DefaultName
  | [] => []
  | argument :: arguments => argumentNames argument ++ argumentsNames arguments

end

def defaultNames : TemplateDefault → List DefaultName
  | .templateTypeDefault type => typeNames type
  | .templateValueDefault value => valueNames value

/-- The name that a default consists of. -/
def directName : TemplateDefault → Option DefaultName
  | .templateTypeDefault (.explicitType identifier) => some (.typeName identifier)
  | .templateValueDefault (.templateNameSyntax _ [identifier]) => some (.valueName identifier)
  | _ => none

/-- The names inside a default that is not itself a name. -/
def nestedNames (syntaxDefault : TemplateDefault) : List DefaultName :=
  if (directName syntaxDefault).isSome then [] else defaultNames syntaxDefault

section Reading

variable (declaration : TemplateDeclarationDescriptor)

/-- A value with the parameters in it as variables. -/
def openValue : TemplateValueSyntax → Option TemplateValue
  | .templateIntegerSyntax _ value => some (.integerTemplateValue value)
  | .templateCharacterSyntax _ scalar => some (.characterTemplateValue scalar)
  | .templateBooleanSyntax _ value => some (.booleanTemplateValue value)
  | .templateNameSyntax _ [identifier] =>
      (findParameter identifier declaration).map fun parameter =>
        .templateValueParameter parameter.templateDescriptorName
  | _ => none

mutual

/-- A type with the parameters in it as variables. -/
def openType : TypeSyntax → Option Ty
  | .autoType => none
  | .explicitType identifier =>
      match findParameter identifier declaration with
      | some parameter => some (.typeVariable parameter.templateDescriptorName)
      | none => some (.namedType [identifier] [])
  | .qualifiedTypeSyntax name arguments => (openArguments arguments).map (.namedType name)
  | .builtinArrayTypeSyntax element => (openType element).map builtinArray
  | .arrayTypeSyntax element => (openType element).map fun element => systemArray [.typeTemplateArgument element]
  | .fixedArrayTypeSyntax element size => do
      let elementType ← openType element
      let sizeValue ← openValue declaration size
      pure (systemArray [.typeTemplateArgument elementType, .valueTemplateArgument sizeValue])
  | .dictionaryTypeSyntax key value => do
      let keyType ← openType key
      let valueType ← openType value
      pure (systemDictionary keyType valueType)
  | .callableTypeSyntax parameters result => do
      let parameterTypes ← openTypes parameters
      let resultType ← openType result
      pure (.functionType parameterTypes resultType)

def openArgument : TemplateArgumentSyntax → Option TemplateArgument
  | .templateTypeSyntax type => (openType type).map .typeTemplateArgument
  | .templateValueArgumentSyntax value => (openValue declaration value).map .valueTemplateArgument

def openTypes : List TypeSyntax → Option (List Ty)
  | [] => some []
  | type :: types => do
      let first ← openType type
      let rest ← openTypes types
      pure (first :: rest)

def openArguments : List TemplateArgumentSyntax → Option (List TemplateArgument)
  | [] => some []
  | argument :: arguments => do
      let first ← openArgument argument
      let rest ← openArguments arguments
      pure (first :: rest)

end

def openDefault : TemplateDefault → Option TemplateArgument
  | .templateTypeDefault type => (openType declaration type).map .typeTemplateArgument
  | .templateValueDefault value => (openValue declaration value).map .valueTemplateArgument

/-! ## What a default may name -/

/-- A name may stand for a single argument of its own category. -/
def Usable (name : DefaultName) (parameter : TemplateParameterDescriptor) : Prop :=
  parameter.templateDescriptorIsPack = false ∧
    match name, parameter.templateDescriptorCategory with
    | .typeName _, .valueParameterCategory _ => False
    | .typeName _, _ => True
    | .valueName _, .valueParameterCategory _ => True
    | .valueName _, _ => False
    | .templateName _, _ => False

/-- A default that is the name of a parameter, and the default of that parameter. -/
def Refers (first second : TemplateDefault) : Prop :=
  ∃ name parameter, directName first = some name ∧
    findParameter name.identifier declaration = some parameter ∧ parameter.templateDescriptorDefault = some second

def Reaches : TemplateDefault → TemplateDefault → Prop :=
  Relation.ReflTransGen (Refers declaration)

/-- Every parameter nested in a default, or in one that it reaches, is an earlier one. -/
def Ordered (earlier : List TemplateParameterDescriptor) (syntaxDefault : TemplateDefault) : Prop :=
  ∀ reached, Reaches declaration syntaxDefault reached →
    (∀ name, directName reached = some name → ∀ parameter,
      findParameter name.identifier declaration = some parameter → Usable name parameter) ∧
    ∀ name ∈ nestedNames reached, ∀ parameter, findParameter name.identifier declaration = some parameter →
      parameter ∈ earlier ∧ Usable name parameter

/-- No default needs its own parameter. -/
def Acyclic : Prop :=
  ∃ rank : Int → Nat, ∀ parameter ∈ declaration.templateDeclarationParameters,
    ∀ syntaxDefault, parameter.templateDescriptorDefault = some syntaxDefault →
      ∀ name ∈ defaultNames syntaxDefault, ∀ named, findParameter name.identifier declaration = some named →
        rank named.templateDescriptorName.resolvedSymbol < rank parameter.templateDescriptorName.resolvedSymbol

/-- Parameters of one template have different spellings and symbols. -/
structure Distinct : Prop where
  spellings : (declaration.templateDeclarationParameters.map (·.templateDescriptorName.resolvedSpelling)).Nodup
  symbols : (declaration.templateDeclarationParameters.map (·.templateDescriptorName.resolvedSymbol)).Nodup

end Reading

/-! ## Names bound so far -/

variable {declaration : TemplateDeclarationDescriptor}

theorem lookupBySpelling_append (identifier : Identifier) (first second : PartialBindings) :
    lookupBySpelling identifier (first ++ second) =
      (lookupBySpelling identifier first).or (lookupBySpelling identifier second) := by
  simp [lookupBySpelling, List.find?_append, Option.map_or]

theorem lookupBySpelling_single (identifier : Identifier) (name : ResolvedName)
    (values : List BoundTemplateArgument) :
    lookupBySpelling identifier [(name, values)] =
      if name.resolvedSpelling = identifier then some values else none := by
  unfold lookupBySpelling
  by_cases h : name.resolvedSpelling = identifier <;> simp [h]

variable {bindings : PartialBindings} {name : DefaultName} {argument : TemplateArgument}
  {syntaxDefault : TemplateDefault}

theorem lookupBySpelling_eq_none {identifier : Identifier} :
    lookupBySpelling identifier bindings = none ↔ ∀ bound ∈ bindings, bound.1.resolvedSpelling ≠ identifier := by
  simp [lookupBySpelling]

/-- An argument of the kind that a name stands for. -/
def DefaultName.Takes : DefaultName → TemplateArgument → Prop
  | typeName _, .typeTemplateArgument _ => True
  | valueName _, .valueTemplateArgument _ => True
  | _, _ => False

/-- The argument that a name is bound to. -/
def lookupBound (bindings : PartialBindings) : DefaultName → Option TemplateArgument
  | .typeName identifier => (lookupBoundType identifier bindings).map .typeTemplateArgument
  | .valueName identifier => (lookupBoundValue identifier bindings).map .valueTemplateArgument
  | .templateName _ => none

theorem lookupBound_eq_some :
    lookupBound bindings name = some argument ↔
      ∃ bound, lookupBySpelling name.identifier bindings = some [bound] ∧ bound.argument = argument ∧
        name.Takes argument := by
  cases name
  case templateName identifier => simp [lookupBound, DefaultName.Takes]
  all_goals
    simp only [lookupBound, lookupBoundType, lookupBoundValue, DefaultName.identifier]
    constructor
    · intro h
      split at h <;> simp_all [BoundTemplateArgument.argument, DefaultName.Takes] <;> grind
    · rintro ⟨bound, hbound, rfl, htakes⟩
      cases bound <;> rename_i given <;> cases given <;>
        simp_all [BoundTemplateArgument.argument, DefaultName.Takes]

variable {others : PartialBindings} {values : List BoundTemplateArgument} {binding : TemplateBinding}

theorem lookupBound_congr (h : lookupBySpelling name.identifier bindings = lookupBySpelling name.identifier others) :
    lookupBound bindings name = lookupBound others name := by
  cases name <;> simp_all [lookupBound, lookupBoundType, lookupBoundValue, DefaultName.identifier]

/-! ## Chains of defaults -/

/-- How a default is resolved: a bound name, a name that is no parameter, the default of the parameter that it
names, or any other default. -/
inductive Resolves (declaration : TemplateDeclarationDescriptor) (bindings : PartialBindings) :
    List Int → TemplateDefault → TemplateArgument → Prop
  | bound {visited syntaxDefault name argument} (hname : directName syntaxDefault = some name)
      (hbound : lookupBound bindings name = some argument) :
      Resolves declaration bindings visited syntaxDefault argument
  | other {visited syntaxDefault name argument} (hname : directName syntaxDefault = some name)
      (hbound : lookupBound bindings name = none) (hfind : findParameter name.identifier declaration = none)
      (hresolved : resolveDefault bindings syntaxDefault = some argument) :
      Resolves declaration bindings visited syntaxDefault argument
  | next {visited syntaxDefault name argument parameter nested} (hname : directName syntaxDefault = some name)
      (hbound : lookupBound bindings name = none) (hfind : findParameter name.identifier declaration = some parameter)
      (hnew : parameter.templateDescriptorName.resolvedSymbol ∉ visited)
      (hdefault : parameter.templateDescriptorDefault = some nested)
      (rest : Resolves declaration bindings (parameter.templateDescriptorName.resolvedSymbol :: visited) nested
        argument) :
      Resolves declaration bindings visited syntaxDefault argument
  | nested {visited syntaxDefault argument} (hname : directName syntaxDefault = none)
      (hresolved : resolveDefault bindings syntaxDefault = some argument) :
      Resolves declaration bindings visited syntaxDefault argument

theorem resolveDefaultFor_direct {visited : List Int} (hname : directName syntaxDefault = some name) :
    resolveDefaultFor declaration bindings visited syntaxDefault =
      (lookupBound bindings name).or
        (match findParameter name.identifier declaration with
        | none => resolveDefault bindings syntaxDefault
        | some parameter =>
            if parameter.templateDescriptorName.resolvedSymbol ∈ visited then none
            else parameter.templateDescriptorDefault.bind
              (resolveDefaultFor declaration bindings
                (parameter.templateDescriptorName.resolvedSymbol :: visited))) := by
  unfold directName at hname
  split at hname
  · obtain rfl : DefaultName.typeName _ = name := by simpa using hname
    rename_i identifier
    rw [resolveDefaultFor]
    simp only [lookupBound, DefaultName.identifier]
    cases lookupBoundType identifier bindings with
    | some type => rfl
    | none =>
        simp only [Option.map_none, Option.none_or]
        split
        · rename_i hfind
          simp [hfind]
        · rename_i parameter hfind
          simp only [hfind, dite_eq_ite]
          split_ifs
          · rfl
          · cases parameter.templateDescriptorDefault <;> rfl
  · obtain rfl : DefaultName.valueName _ = name := by simpa using hname
    rename_i span identifier
    rw [resolveDefaultFor]
    simp only [lookupBound, DefaultName.identifier]
    cases hvalue : lookupBoundValue identifier bindings with
    | some value => rfl
    | none =>
        simp only [Option.map_none, Option.none_or]
        split
        · rename_i hfind
          simp [hfind, resolveDefault, resolveDefaultValue, hvalue]
        · rename_i parameter hfind
          simp only [hfind, dite_eq_ite]
          split_ifs
          · rfl
          · cases parameter.templateDescriptorDefault <;> rfl
  · cases hname

theorem resolveDefaultFor_nested {visited : List Int} (hname : directName syntaxDefault = none) :
    resolveDefaultFor declaration bindings visited syntaxDefault = resolveDefault bindings syntaxDefault := by
  unfold directName at hname
  split at hname
  · cases hname
  · cases hname
  · rename_i htype hvalue
    rw [resolveDefaultFor.eq_def]
    split
    · exact (htype _ rfl).elim
    · exact (hvalue _ _ rfl).elim
    · rfl

/-- `resolveDefaultFor` finds an argument exactly along `Resolves`. -/
theorem resolveDefaultFor_eq_some {visited : List Int} :
    resolveDefaultFor declaration bindings visited syntaxDefault = some argument ↔
      Resolves declaration bindings visited syntaxDefault argument := by
  constructor
  · intro h
    induction hn : (openParameters declaration visited).length using Nat.strong_induction_on generalizing
      visited syntaxDefault with
    | _ n ih =>
        cases hname : directName syntaxDefault with
        | none =>
            rw [resolveDefaultFor_nested hname] at h
            exact .nested hname h
        | some name =>
            rw [resolveDefaultFor_direct hname] at h
            cases hbound : lookupBound bindings name with
            | some bound =>
                obtain rfl : bound = argument := by simpa [hbound] using h
                exact .bound hname hbound
            | none =>
                rw [hbound, Option.none_or] at h
                cases hfind : findParameter name.identifier declaration with
                | none => exact .other hname hbound hfind (by simpa [hfind] using h)
                | some parameter =>
                    simp only [hfind] at h
                    split_ifs at h with hvisited
                    obtain ⟨nested, hdefault, hnested⟩ := Option.bind_eq_some_iff.mp h
                    exact .next hname hbound hfind hvisited hdefault
                      (ih _ (hn ▸ openParameters_lt hfind hvisited) hnested rfl)
  · intro h
    induction h with
    | bound hname hbound => simp [resolveDefaultFor_direct hname, hbound]
    | other hname hbound hfind hresolved => simp [resolveDefaultFor_direct hname, hbound, hfind, hresolved]
    | next hname hbound hfind hnew hdefault rest ih =>
        simp [resolveDefaultFor_direct hname, hbound, hfind, hnew, hdefault, ih]
    | nested hname hresolved => simp [resolveDefaultFor_nested hname, hresolved]

/-! ## Defaults under more bindings -/

mutual

theorem resolveDefaultType_congr {bindings others : PartialBindings} : ∀ (type : TypeSyntax),
    (∀ name ∈ typeNames type,
      lookupBySpelling name.identifier bindings = lookupBySpelling name.identifier others) →
    resolveDefaultType bindings type = resolveDefaultType others type
  | .autoType, _ => rfl
  | .explicitType identifier, h => by
      have hname := h (.typeName identifier) (by simp [typeNames])
      simp only [DefaultName.identifier] at hname
      simp only [resolveDefaultType, lookupBoundType, hname]
  | .qualifiedTypeSyntax name arguments, h => by
      have harguments : ∀ name ∈ argumentsNames arguments,
          lookupBySpelling name.identifier bindings = lookupBySpelling name.identifier others := by
        intro single hsingle
        apply h
        unfold typeNames
        split <;> simp_all
      simp only [resolveDefaultType, resolveDefaultArguments_congr arguments harguments]
  | .builtinArrayTypeSyntax element, h => by
      simp only [resolveDefaultType, resolveDefaultType_congr element (by simpa [typeNames] using h)]
  | .arrayTypeSyntax element, h => by
      simp only [resolveDefaultType, resolveDefaultType_congr element (by simpa [typeNames] using h)]
  | .fixedArrayTypeSyntax element size, h => by
      simp only [typeNames, List.mem_append] at h
      simp only [resolveDefaultType, resolveDefaultType_congr element fun name hname => h name (.inl hname),
        resolveDefaultValue_congr size fun name hname => h name (.inr hname)]
  | .dictionaryTypeSyntax key value, h => by
      simp only [typeNames, List.mem_append] at h
      simp only [resolveDefaultType, resolveDefaultType_congr key fun name hname => h name (.inl hname),
        resolveDefaultType_congr value fun name hname => h name (.inr hname)]
  | .callableTypeSyntax parameters result, h => by
      simp only [typeNames, List.mem_append] at h
      simp only [resolveDefaultType, resolveDefaultTypes_congr parameters fun name hname => h name (.inl hname),
        resolveDefaultType_congr result fun name hname => h name (.inr hname)]

theorem resolveDefaultArgument_congr {bindings others : PartialBindings} : ∀ (argument : TemplateArgumentSyntax),
    (∀ name ∈ argumentNames argument,
      lookupBySpelling name.identifier bindings = lookupBySpelling name.identifier others) →
    resolveDefaultArgument bindings argument = resolveDefaultArgument others argument
  | .templateTypeSyntax type, h => by
      simp only [resolveDefaultArgument, resolveDefaultType_congr type h]
  | .templateValueArgumentSyntax value, h => by
      simp only [resolveDefaultArgument, resolveDefaultValue_congr value h]

theorem resolveDefaultTypes_congr {bindings others : PartialBindings} : ∀ (types : List TypeSyntax),
    (∀ name ∈ typesNames types,
      lookupBySpelling name.identifier bindings = lookupBySpelling name.identifier others) →
    resolveDefaultTypes bindings types = resolveDefaultTypes others types
  | [], _ => rfl
  | type :: types, h => by
      simp only [typesNames, List.mem_append] at h
      simp only [resolveDefaultTypes, resolveDefaultType_congr type fun name hname => h name (.inl hname),
        resolveDefaultTypes_congr types fun name hname => h name (.inr hname)]

theorem resolveDefaultArguments_congr {bindings others : PartialBindings} :
    ∀ (arguments : List TemplateArgumentSyntax),
    (∀ name ∈ argumentsNames arguments,
      lookupBySpelling name.identifier bindings = lookupBySpelling name.identifier others) →
    resolveDefaultArguments bindings arguments = resolveDefaultArguments others arguments
  | [], _ => rfl
  | argument :: arguments, h => by
      simp only [argumentsNames, List.mem_append] at h
      simp only [resolveDefaultArguments,
        resolveDefaultArgument_congr argument fun name hname => h name (.inl hname),
        resolveDefaultArguments_congr arguments fun name hname => h name (.inr hname)]

theorem resolveDefaultValue_congr {bindings others : PartialBindings} (value : TemplateValueSyntax)
    (h : ∀ name ∈ valueNames value,
      lookupBySpelling name.identifier bindings = lookupBySpelling name.identifier others) :
    resolveDefaultValue bindings value = resolveDefaultValue others value := by
  unfold resolveDefaultValue
  split <;> try rfl
  rename_i identifier
  have hname := h (.valueName identifier) (by simp [valueNames])
  simp only [DefaultName.identifier] at hname
  simp only [lookupBoundValue, hname]

end

theorem resolveDefault_congr (syntaxDefault : TemplateDefault) (h : ∀ name ∈ defaultNames syntaxDefault,
      lookupBySpelling name.identifier bindings = lookupBySpelling name.identifier others) :
    resolveDefault bindings syntaxDefault = resolveDefault others syntaxDefault := by
  cases syntaxDefault with
  | templateTypeDefault type => simp only [resolveDefault, resolveDefaultType_congr type h]
  | templateValueDefault value => simp only [resolveDefault, resolveDefaultValue_congr value h]

/-- A parameter found by its spelling is the only one of that spelling. -/
theorem Distinct.eq_of_spelling (hdistinct : Distinct declaration) {first second : TemplateParameterDescriptor}
    (hfirst : first ∈ declaration.templateDeclarationParameters)
    (hsecond : second ∈ declaration.templateDeclarationParameters)
    (h : first.templateDescriptorName.resolvedSpelling = second.templateDescriptorName.resolvedSpelling) :
    first = second :=
  List.inj_on_of_nodup_map hdistinct.spellings hfirst hsecond h

theorem findParameter_eq_none {identifier : Identifier} :
    findParameter identifier declaration = none ↔ ∀ parameter ∈ declaration.templateDeclarationParameters,
      parameter.templateDescriptorName.resolvedSpelling ≠ identifier := by
  simp [findParameter]

/-- All bindings are of parameters of the template. -/
def OfParameters (declaration : TemplateDeclarationDescriptor) (bindings : PartialBindings) : Prop :=
  ∀ bound ∈ bindings, ∃ parameter ∈ declaration.templateDeclarationParameters,
    bound.1 = parameter.templateDescriptorName

theorem OfParameters.lookup_eq_none (h : OfParameters declaration bindings)
    {identifier : Identifier} (hfind : findParameter identifier declaration = none) :
    lookupBySpelling identifier bindings = none := by
  rw [lookupBySpelling_eq_none]
  intro bound hbound
  obtain ⟨parameter, hparameter, hname⟩ := h bound hbound
  rw [hname]
  exact findParameter_eq_none.mp hfind parameter hparameter

/-- One more parameter is bound after the supplied arguments have run out. -/
def Fill (declaration : TemplateDeclarationDescriptor) (bindings next : PartialBindings) : Prop :=
  ∃ parameter ∈ declaration.templateDeclarationParameters, ∃ values,
    next = bindings ++ [(parameter.templateDescriptorName, values)] ∧
    lookupBySpelling parameter.templateDescriptorName.resolvedSpelling bindings = none ∧
    (parameter.templateDescriptorIsPack = false → ∃ syntaxDefault argument,
      parameter.templateDescriptorDefault = some syntaxDefault ∧ values = [.defaultTemplateArgument argument] ∧
      Resolves declaration bindings [parameter.templateDescriptorName.resolvedSymbol] syntaxDefault argument)

theorem Fill.ofParameters {next : PartialBindings} (h : Fill declaration bindings next)
    (hof : OfParameters declaration bindings) : OfParameters declaration next := by
  obtain ⟨parameter, hparameter, values, rfl, -, -⟩ := h
  intro bound hbound
  rcases List.mem_append.mp hbound with hbound | hbound
  · exact hof bound hbound
  · obtain rfl := List.mem_singleton.mp hbound
    exact ⟨parameter, hparameter, rfl⟩

/-- What is bound stays bound. -/
theorem Fill.lookup_eq {next : PartialBindings} (h : Fill declaration bindings next) {identifier : Identifier}
    (hbound : lookupBySpelling identifier bindings = some values) :
    lookupBySpelling identifier next = some values := by
  obtain ⟨parameter, hparameter, added, rfl, -, -⟩ := h
  rw [lookupBySpelling_append, hbound, Option.some_or]

abbrev Fills (declaration : TemplateDeclarationDescriptor) : PartialBindings → PartialBindings → Prop :=
  Relation.ReflTransGen (Fill declaration)

theorem Fills.ofParameters {next : PartialBindings} (h : Fills declaration bindings next)
    (hof : OfParameters declaration bindings) : OfParameters declaration next := by
  induction h with
  | refl => exact hof
  | tail _ hstep ih => exact hstep.ofParameters ih

theorem Fills.lookup_eq {next : PartialBindings} (h : Fills declaration bindings next) {identifier : Identifier}
    (hbound : lookupBySpelling identifier bindings = some values) :
    lookupBySpelling identifier next = some values := by
  induction h with
  | refl => exact hbound
  | tail _ hstep ih => exact hstep.lookup_eq ih

/-- A default with all it reaches nests only bound names, and names no pack. -/
def Grounded (declaration : TemplateDeclarationDescriptor) (bindings : PartialBindings)
    (syntaxDefault : TemplateDefault) : Prop :=
  ∀ reached, Reaches declaration syntaxDefault reached →
    (∀ name, directName reached = some name → ∀ parameter,
      findParameter name.identifier declaration = some parameter → parameter.templateDescriptorIsPack = false) ∧
    ∀ name ∈ nestedNames reached, ∀ parameter, findParameter name.identifier declaration = some parameter →
      ∃ values, lookupBySpelling name.identifier bindings = some values

theorem Grounded.next {first second : TemplateDefault}
    (h : Grounded declaration bindings first) (hrefers : Refers declaration first second) :
    Grounded declaration bindings second :=
  fun reached hreached => h reached (.head hrefers hreached)

theorem defaultNames_direct (h : directName syntaxDefault = some name) : defaultNames syntaxDefault = [name] := by
  unfold directName at h
  split at h <;> simp_all [defaultNames, typeNames, valueNames]

theorem nestedNames_nested (h : directName syntaxDefault = none) :
    nestedNames syntaxDefault = defaultNames syntaxDefault := by
  simp [nestedNames, h]

/-- The names nested in a grounded default are read alike after more parameters have been filled. -/
theorem Grounded.resolveDefault_eq {next : PartialBindings}
    (h : Grounded declaration bindings syntaxDefault) (hname : directName syntaxDefault = none)
    (hfills : Fills declaration bindings next) (hof : OfParameters declaration bindings) :
    resolveDefault next syntaxDefault = resolveDefault bindings syntaxDefault := by
  apply resolveDefault_congr
  intro name hmem
  cases hfind : findParameter name.identifier declaration with
  | none => rw [hof.lookup_eq_none hfind, (hfills.ofParameters hof).lookup_eq_none hfind]
  | some parameter =>
      rw [← nestedNames_nested hname] at hmem
      obtain ⟨values, hvalues⟩ := (h _ .refl).2 name hmem parameter hfind
      rw [hvalues, hfills.lookup_eq hvalues]

/-- A default resolves alike after more parameters have been filled: a name along its chain that has been bound
since then is bound to what the chain gives. -/
theorem Resolves.fills (hdistinct : Distinct declaration) {next : PartialBindings}
    (hof : OfParameters declaration bindings) (hfills : Fills declaration bindings next) {visited : List Int}
    (h : Resolves declaration bindings visited syntaxDefault argument)
    (hgrounded : Grounded declaration bindings syntaxDefault) {seen : List Int} (hseen : seen ⊆ visited) :
    Resolves declaration next seen syntaxDefault argument := by
  induction hfills generalizing visited syntaxDefault argument seen with
  | refl =>
      induction h generalizing seen with
      | bound hname hbound => exact .bound hname hbound
      | other hname hbound hfind hresolved => exact .other hname hbound hfind hresolved
      | next hname hbound hfind hnew hdefault rest ih =>
          exact .next hname hbound hfind (fun hmem => hnew (hseen hmem)) hdefault
            (ih (hgrounded.next ⟨_, _, hname, hfind, hdefault⟩) (List.cons_subset_cons _ hseen))
      | nested hname hresolved => exact .nested hname hresolved
  | @tail before next hbefore hstep outer =>
      have hall : Fills declaration bindings next := hbefore.tail hstep
      induction h generalizing seen with
      | bound hname hbound =>
          obtain ⟨bound, hlookup, htakes⟩ := lookupBound_eq_some.mp hbound
          exact .bound hname (lookupBound_eq_some.mpr ⟨bound, hall.lookup_eq hlookup, htakes⟩)
      | nested hname hresolved =>
          exact .nested hname (by rw [hgrounded.resolveDefault_eq hname hall hof, hresolved])
      | @other visited syntaxDefault name argument hname hbound hfind hresolved =>
          have hlookup : lookupBySpelling name.identifier next = lookupBySpelling name.identifier bindings := by
            rw [hof.lookup_eq_none hfind, (hall.ofParameters hof).lookup_eq_none hfind]
          refine .other hname (by rw [lookupBound_congr hlookup, hbound]) hfind ?_
          rw [← hresolved]
          apply resolveDefault_congr
          simp [defaultNames_direct hname, hlookup]
      | @next visited syntaxDefault name argument parameter nested hname hbound hfind hnew hdefault rest ih =>
          have hrefers : Refers declaration syntaxDefault nested := ⟨_, _, hname, hfind, hdefault⟩
          cases hthen : lookupBound next name with
          | none =>
              exact .next hname hthen hfind (fun hmem => hnew (hseen hmem)) hdefault
                (ih (hgrounded.next hrefers) (List.cons_subset_cons _ hseen))
          | some bound =>
              -- Bound before the last step, the chain from there gives the same; bound by it, so does its chain.
              suffices hsame : bound = argument from hsame ▸ .bound hname hthen
              obtain ⟨added, hadded, values, rfl, hfresh, hvalue⟩ := hstep
              obtain ⟨value, hvalueOf, hargument, htakes⟩ := lookupBound_eq_some.mp hthen
              rw [lookupBySpelling_append] at hvalueOf
              cases hearlier : lookupBySpelling name.identifier before with
              | some found =>
                  rw [hearlier, Option.some_or, Option.some.injEq] at hvalueOf
                  subst hvalueOf
                  have hnow : Resolves declaration before visited syntaxDefault bound :=
                    .bound hname (lookupBound_eq_some.mpr ⟨value, hearlier, hargument, htakes⟩)
                  have hthere := outer (.next hname hbound hfind hnew hdefault rest) hgrounded
                    (List.Subset.refl visited)
                  exact Option.some.inj
                    ((resolveDefaultFor_eq_some.mpr hnow).symm.trans (resolveDefaultFor_eq_some.mpr hthere))
              | none =>
                  rw [hearlier, Option.none_or, lookupBySpelling_single] at hvalueOf
                  split_ifs at hvalueOf with hspelling
                  have hsingle := (hgrounded _ .refl).1 name hname parameter hfind
                  obtain ⟨hparameter, hspelled⟩ := findParameter_mem hfind
                  obtain rfl := hdistinct.eq_of_spelling hadded hparameter (hspelling.trans hspelled.symm)
                  obtain ⟨own, given, hown, hgiven, hresolves⟩ := hvalue hsingle
                  obtain rfl : nested = own := Option.some.inj (hdefault.symm.trans hown)
                  obtain rfl : values = [value] := Option.some.inj hvalueOf
                  obtain rfl : value = .defaultTemplateArgument given := by simpa using hgiven
                  have hchain := outer rest (hgrounded.next hrefers)
                    (List.cons_subset_cons added.templateDescriptorName.resolvedSymbol (List.nil_subset visited))
                  have hsame : given = argument := Option.some.inj
                    ((resolveDefaultFor_eq_some.mpr hresolves).symm.trans (resolveDefaultFor_eq_some.mpr hchain))
                  exact hargument.symm.trans hsame

/-! ## Defaults with their parameters replaced -/

/-- A usable name takes every argument that its parameter accepts. -/
theorem Usable.takes {parameter : TemplateParameterDescriptor} (h : Usable name parameter)
    (haccepts : acceptsCategory parameter.templateDescriptorCategory argument = true) :
    name.Takes argument := by
  obtain ⟨-, hkind⟩ := h
  cases name <;> cases hcategory : parameter.templateDescriptorCategory <;> cases argument <;>
    simp_all [acceptsCategory, DefaultName.Takes]

/-- A name is that of no parameter, or its parameter is bound to the argument that a final binding gives it. -/
def Agrees (declaration : TemplateDeclarationDescriptor) (binding : TemplateBinding) (name : DefaultName) : Prop :=
  (findParameter name.identifier declaration = none ∧
    lookupBySpelling name.identifier binding.templateBindingArguments = none) ∨
  ∃ parameter bound, findParameter name.identifier declaration = some parameter ∧
    lookupBySpelling name.identifier binding.templateBindingArguments = some [bound] ∧ name.Takes bound.argument ∧
    (flattenedBindings binding).lookup parameter.templateDescriptorName.resolvedSymbol = some [bound.argument]

theorem openValue_replaced {value : TemplateValueSyntax} {resolved : TemplateValue}
    (hnames : ∀ name ∈ valueNames value, Agrees declaration binding name)
    (h : resolveDefaultValue binding.templateBindingArguments value = some resolved) :
    ∃ opened, openValue declaration value = some opened ∧ substituteTemplateValue binding opened = .ok resolved := by
  unfold resolveDefaultValue at h
  split at h
  · exact ⟨_, rfl, by simp_all [substituteTemplateValue]⟩
  · exact ⟨_, rfl, by simp_all [substituteTemplateValue]⟩
  · exact ⟨_, rfl, by simp_all [substituteTemplateValue]⟩
  · rename_i span identifier
    have hbound : lookupBound binding.templateBindingArguments (.valueName identifier) =
        some (.valueTemplateArgument resolved) := by simp [lookupBound, h]
    obtain ⟨found, hfound, hargument, -⟩ := lookupBound_eq_some.mp hbound
    rcases hnames (.valueName identifier) (by simp [valueNames]) with
      ⟨-, hnone⟩ | ⟨parameter, bound, hfind, hlookup, -, hflat⟩
    · simp [hnone] at hfound
    · obtain rfl : found = bound := by simpa [hlookup] using hfound.symm
      simp only [DefaultName.identifier] at hfind
      exact ⟨_, by rw [openValue, hfind]; rfl, by simp only [substituteTemplateValue, hflat, hargument]⟩
  · cases h
  · cases h
  · cases h

mutual

theorem openType_replaced {binding : TemplateBinding} : ∀ (type : TypeSyntax) {resolved : Ty},
    (∀ name ∈ typeNames type, Agrees declaration binding name) →
    resolveDefaultType binding.templateBindingArguments type = some resolved →
    ∃ opened, openType declaration type = some opened ∧ substituteType binding opened = .ok resolved
  | .autoType, _, _, h => by simp [resolveDefaultType] at h
  | .explicitType identifier, resolved, hnames, h => by
      rcases hnames (.typeName identifier) (by simp [typeNames]) with
        ⟨hfind, hnone⟩ | ⟨parameter, bound, hfind, hlookup, htakes, hflat⟩
      · simp only [DefaultName.identifier] at hfind hnone
        simp only [resolveDefaultType, lookupBoundType, hnone, Option.none_or, Option.some.injEq] at h
        exact ⟨.namedType [identifier] [], by simp [openType, hfind],
          by simp [substituteType, substituteTemplateArguments, h, bind, Except.bind, pure, Except.pure]⟩
      · have hbound : lookupBound binding.templateBindingArguments (.typeName identifier) = some bound.argument :=
          lookupBound_eq_some.mpr ⟨bound, hlookup, rfl, htakes⟩
        obtain ⟨type, htype, hargument⟩ := Option.map_eq_some_iff.mp hbound
        simp only [resolveDefaultType, htype, Option.some_or, Option.some.injEq] at h
        simp only [DefaultName.identifier] at hfind
        rw [← hargument] at hflat
        exact ⟨.typeVariable parameter.templateDescriptorName, by simp [openType, hfind],
          by simp only [substituteType, hflat, h]⟩
  | .qualifiedTypeSyntax name arguments, resolved, hnames, h => by
      have harguments : ∀ name ∈ argumentsNames arguments, Agrees declaration binding name := by
        intro single hsingle
        apply hnames
        unfold typeNames
        split <;> simp_all
      obtain ⟨closed, hclosed, rfl⟩ := Option.map_eq_some_iff.mp h
      obtain ⟨opened, hopened, hreplaced⟩ := openArguments_replaced arguments harguments hclosed
      exact ⟨.namedType name opened, by simp [openType, hopened],
        by simp [substituteType, hreplaced, bind, Except.bind, pure, Except.pure]⟩
  | .builtinArrayTypeSyntax element, resolved, hnames, h => by
      obtain ⟨closed, hclosed, rfl⟩ := Option.map_eq_some_iff.mp h
      obtain ⟨opened, hopened, hreplaced⟩ := openType_replaced element (by simpa [typeNames] using hnames) hclosed
      exact ⟨builtinArray opened, by simp [openType, hopened],
        by simp [substituteType, substituteTemplateArguments, substituteTemplateArgument, builtinArray, hreplaced,
          bind, Except.bind, pure, Except.pure]⟩
  | .arrayTypeSyntax element, resolved, hnames, h => by
      obtain ⟨closed, hclosed, rfl⟩ := Option.map_eq_some_iff.mp h
      obtain ⟨opened, hopened, hreplaced⟩ := openType_replaced element (by simpa [typeNames] using hnames) hclosed
      exact ⟨systemArray [.typeTemplateArgument opened], by simp [openType, hopened],
        by simp [substituteType, substituteTemplateArguments, substituteTemplateArgument, systemArray, hreplaced,
          bind, Except.bind, pure, Except.pure]⟩
  | .fixedArrayTypeSyntax element size, resolved, hnames, h => by
      simp only [typeNames, List.mem_append] at hnames
      obtain ⟨elementType, helement, h⟩ := Option.bind_eq_some_iff.mp h
      obtain ⟨sizeValue, hsize, h⟩ := Option.bind_eq_some_iff.mp h
      obtain rfl := Option.some.inj h
      obtain ⟨opened, hopened, hreplaced⟩ :=
        openType_replaced element (fun name hname => hnames name (.inl hname)) helement
      obtain ⟨openedSize, hopenedSize, hreplacedSize⟩ :=
        openValue_replaced (fun name hname => hnames name (.inr hname)) hsize
      exact ⟨systemArray [.typeTemplateArgument opened, .valueTemplateArgument openedSize],
        by simp [openType, hopened, hopenedSize],
        by simp [substituteType, substituteTemplateArguments, substituteTemplateArgument, systemArray, hreplaced,
          hreplacedSize, bind, Except.bind, pure, Except.pure]⟩
  | .dictionaryTypeSyntax key value, resolved, hnames, h => by
      simp only [typeNames, List.mem_append] at hnames
      obtain ⟨keyType, hkey, h⟩ := Option.bind_eq_some_iff.mp h
      obtain ⟨valueType, hvalue, h⟩ := Option.bind_eq_some_iff.mp h
      obtain rfl := Option.some.inj h
      obtain ⟨opened, hopened, hreplaced⟩ :=
        openType_replaced key (fun name hname => hnames name (.inl hname)) hkey
      obtain ⟨openedValue, hopenedValue, hreplacedValue⟩ :=
        openType_replaced value (fun name hname => hnames name (.inr hname)) hvalue
      exact ⟨systemDictionary opened openedValue, by simp [openType, hopened, hopenedValue],
        by simp [substituteType, substituteTemplateArguments, substituteTemplateArgument, systemDictionary, hreplaced,
          hreplacedValue, bind, Except.bind, pure, Except.pure]⟩
  | .callableTypeSyntax parameters result, resolved, hnames, h => by
      simp only [typeNames, List.mem_append] at hnames
      obtain ⟨parameterTypes, hparameters, h⟩ := Option.bind_eq_some_iff.mp h
      obtain ⟨resultType, hresult, h⟩ := Option.bind_eq_some_iff.mp h
      obtain rfl := Option.some.inj h
      obtain ⟨opened, hopened, hreplaced⟩ :=
        openTypes_replaced parameters (fun name hname => hnames name (.inl hname)) hparameters
      obtain ⟨openedResult, hopenedResult, hreplacedResult⟩ :=
        openType_replaced result (fun name hname => hnames name (.inr hname)) hresult
      exact ⟨.functionType opened openedResult, by simp [openType, hopened, hopenedResult],
        by simp [substituteType, hreplaced, hreplacedResult, bind, Except.bind, pure, Except.pure]⟩

theorem openArgument_replaced {binding : TemplateBinding} :
    ∀ (argument : TemplateArgumentSyntax) {resolved : TemplateArgument},
    (∀ name ∈ argumentNames argument, Agrees declaration binding name) →
    resolveDefaultArgument binding.templateBindingArguments argument = some resolved →
    ∃ opened, openArgument declaration argument = some opened ∧
      substituteTemplateArgument binding opened = .ok resolved
  | .templateTypeSyntax type, resolved, hnames, h => by
      obtain ⟨closed, hclosed, rfl⟩ := Option.map_eq_some_iff.mp h
      obtain ⟨opened, hopened, hreplaced⟩ := openType_replaced type hnames hclosed
      exact ⟨.typeTemplateArgument opened, by simp [openArgument, hopened],
        by simp [substituteTemplateArgument, hreplaced, bind, Except.bind, pure, Except.pure]⟩
  | .templateValueArgumentSyntax value, resolved, hnames, h => by
      obtain ⟨closed, hclosed, rfl⟩ := Option.map_eq_some_iff.mp h
      obtain ⟨opened, hopened, hreplaced⟩ := openValue_replaced hnames hclosed
      exact ⟨.valueTemplateArgument opened, by simp [openArgument, hopened],
        by simp [substituteTemplateArgument, hreplaced, bind, Except.bind, pure, Except.pure]⟩

theorem openTypes_replaced {binding : TemplateBinding} : ∀ (types : List TypeSyntax) {resolved : List Ty},
    (∀ name ∈ typesNames types, Agrees declaration binding name) →
    resolveDefaultTypes binding.templateBindingArguments types = some resolved →
    ∃ opened, openTypes declaration types = some opened ∧ substituteTypes binding opened = .ok resolved
  | [], _, _, h => ⟨[], rfl, by obtain rfl := Option.some.inj h; rfl⟩
  | type :: types, resolved, hnames, h => by
      simp only [typesNames, List.mem_append] at hnames
      obtain ⟨first, hfirst, h⟩ := Option.bind_eq_some_iff.mp h
      obtain ⟨rest, hrest, h⟩ := Option.bind_eq_some_iff.mp h
      obtain rfl := Option.some.inj h
      obtain ⟨opened, hopened, hreplaced⟩ :=
        openType_replaced type (fun name hname => hnames name (.inl hname)) hfirst
      obtain ⟨others, hothers, hreplacedOthers⟩ :=
        openTypes_replaced types (fun name hname => hnames name (.inr hname)) hrest
      exact ⟨opened :: others, by simp [openTypes, hopened, hothers],
        by simp [substituteTypes, hreplaced, hreplacedOthers, bind, Except.bind, pure, Except.pure]⟩

theorem openArguments_replaced {binding : TemplateBinding} :
    ∀ (arguments : List TemplateArgumentSyntax) {resolved : List TemplateArgument},
    (∀ name ∈ argumentsNames arguments, Agrees declaration binding name) →
    resolveDefaultArguments binding.templateBindingArguments arguments = some resolved →
    ∃ opened, openArguments declaration arguments = some opened ∧
      substituteTemplateArguments binding opened = .ok resolved
  | [], _, _, h => ⟨[], rfl, by obtain rfl := Option.some.inj h; rfl⟩
  | argument :: arguments, resolved, hnames, h => by
      simp only [argumentsNames, List.mem_append] at hnames
      obtain ⟨first, hfirst, h⟩ := Option.bind_eq_some_iff.mp h
      obtain ⟨rest, hrest, h⟩ := Option.bind_eq_some_iff.mp h
      obtain rfl := Option.some.inj h
      obtain ⟨opened, hopened, hreplaced⟩ :=
        openArgument_replaced argument (fun name hname => hnames name (.inl hname)) hfirst
      obtain ⟨others, hothers, hreplacedOthers⟩ :=
        openArguments_replaced arguments (fun name hname => hnames name (.inr hname)) hrest
      exact ⟨opened :: others, by simp [openArguments, hopened, hothers],
        by simp [substituteTemplateArguments, hreplaced, hreplacedOthers, bind, Except.bind, pure, Except.pure]⟩

end

theorem openDefault_replaced
    {resolved : TemplateArgument} (hnames : ∀ name ∈ defaultNames syntaxDefault, Agrees declaration binding name)
    (h : resolveDefault binding.templateBindingArguments syntaxDefault = some resolved) :
    ∃ opened, openDefault declaration syntaxDefault = some opened ∧
      substituteTemplateArgument binding opened = .ok resolved := by
  cases syntaxDefault with
  | templateTypeDefault type => exact openArgument_replaced (.templateTypeSyntax type) hnames h
  | templateValueDefault value => exact openArgument_replaced (.templateValueArgumentSyntax value) hnames h

end Tala.Frontend
