import Tala.Frontend.TemplateApplication

/-!
# `Frontend.TemplateBinding` — binding the arguments of a template application

The arguments of an application are bound to the parameters of the template it names: explicit arguments in
order, a pack takes what the required parameters after it leave, and a parameter that gets no argument is bound
to its default.
-/

namespace Tala.Frontend

open Tala Tala.Syntax

/-- An argument, and whether it was supplied or came from a default. -/
inductive BoundTemplateArgument
  | explicitTemplateArgument (argument : TemplateArgument)
  | defaultTemplateArgument (argument : TemplateArgument)
  deriving DecidableEq

namespace BoundTemplateArgument

def argument : BoundTemplateArgument → TemplateArgument
  | explicitTemplateArgument argument | defaultTemplateArgument argument => argument

def explicit? : BoundTemplateArgument → Option TemplateArgument
  | explicitTemplateArgument argument => some argument
  | defaultTemplateArgument _ => none

end BoundTemplateArgument

abbrev PartialBindings := List (ResolvedName × List BoundTemplateArgument)

/-- The arguments of every parameter of a template. -/
structure TemplateBinding where
  templateBindingDeclaration : TemplateDeclarationDescriptor
  templateBindingArguments : PartialBindings

inductive TemplateApplicationError
  | unknownTemplateDeclaration (name : QualifiedName)
  | tooFewTemplateArguments (name : QualifiedName) (required supplied : Nat)
  | tooManyTemplateArguments (name : QualifiedName) (limit supplied : Nat)
  | templateArgumentCategoryMismatch (name : QualifiedName) (parameter : ResolvedName) (index : Nat)
      (category : TemplateParameterCategory) (argument : TemplateArgument)
  | unresolvedTemplateDefault (name : QualifiedName) (parameter : ResolvedName) (syntaxDefault : TemplateDefault)
  | unsupportedTemplatePackDefault (name : QualifiedName) (parameter : ResolvedName)
  | ambiguousTemplateDeclaration (name : QualifiedName) (symbols : List Int)

/-! ## Lookup and arity -/

def lookupTemplateDeclaration (name : QualifiedName) (catalog : TemplateCatalog) :
    Except TemplateApplicationError TemplateDeclarationDescriptor :=
  match catalog.templateCatalogDeclarations.filter (·.templateDeclarationName = name) with
  | [] => .error (.unknownTemplateDeclaration name)
  | [declaration] => .ok declaration
  | declarations => .error (.ambiguousTemplateDeclaration name (declarations.map (·.templateDeclarationSymbol)))

/-- A parameter that only a supplied argument can bind. -/
def TemplateParameterDescriptor.required (parameter : TemplateParameterDescriptor) : Bool :=
  !parameter.templateDescriptorIsPack && parameter.templateDescriptorDefault.isNone

def minimumRequired (parameters : List TemplateParameterDescriptor) : Nat :=
  (parameters.filter (·.required)).length

def minimumTemplateArity (declaration : TemplateDeclarationDescriptor) : Nat :=
  minimumRequired declaration.templateDeclarationParameters

/-- The largest number of arguments, none when there is a pack. -/
def maximumTemplateArity (declaration : TemplateDeclarationDescriptor) : Option Nat :=
  if declaration.templateDeclarationParameters.any (·.templateDescriptorIsPack) then none
  else some declaration.templateDeclarationParameters.length

/-! ## Categories -/

/-- A template is passed to a template parameter as a named type without arguments. -/
def acceptsCategory : TemplateParameterCategory → TemplateArgument → Bool
  | .typeParameterCategory, .typeTemplateArgument _ => true
  | .valueParameterCategory _, .valueTemplateArgument _ => true
  | .templateParameterCategory _, .typeTemplateArgument (.namedType _ []) => true
  | _, _ => false

def validateCategory (declaration : TemplateDeclarationDescriptor) (parameter : TemplateParameterDescriptor)
    (index : Nat) (argument : TemplateArgument) : TemplateArgument × List TemplateApplicationError :=
  if acceptsCategory parameter.templateDescriptorCategory argument then (argument, [])
  else (argument, [.templateArgumentCategoryMismatch declaration.templateDeclarationName
    parameter.templateDescriptorName index parameter.templateDescriptorCategory argument])

/-! ## Names in defaults -/

/-- The first parameter of that spelling. -/
def findParameter (identifier : Identifier) (declaration : TemplateDeclarationDescriptor) :
    Option TemplateParameterDescriptor :=
  declaration.templateDeclarationParameters.find? (·.templateDescriptorName.resolvedSpelling = identifier)

def lookupBySpelling (identifier : Identifier) (bindings : PartialBindings) : Option (List BoundTemplateArgument) :=
  (bindings.find? (·.1.resolvedSpelling = identifier)).map (·.2)

def lookupBoundType (identifier : Identifier) (bindings : PartialBindings) : Option Ty :=
  match lookupBySpelling identifier bindings with
  | some [.explicitTemplateArgument (.typeTemplateArgument type)] => some type
  | some [.defaultTemplateArgument (.typeTemplateArgument type)] => some type
  | _ => none

def lookupBoundValue (identifier : Identifier) (bindings : PartialBindings) : Option TemplateValue :=
  match lookupBySpelling identifier bindings with
  | some [.explicitTemplateArgument (.valueTemplateArgument value)] => some value
  | some [.defaultTemplateArgument (.valueTemplateArgument value)] => some value
  | _ => none

/-! ## Defaults -/

/-- Arithmetic in a default is not evaluated here. -/
def resolveDefaultValue (bindings : PartialBindings) : TemplateValueSyntax → Option TemplateValue
  | .templateIntegerSyntax _ value => some (.integerTemplateValue value)
  | .templateCharacterSyntax _ scalar => some (.characterTemplateValue scalar)
  | .templateBooleanSyntax _ value => some (.booleanTemplateValue value)
  | .templateNameSyntax _ [identifier] => lookupBoundValue identifier bindings
  | .templateUnarySyntax .. => none
  | .templateBinarySyntax .. => none
  | .templateNameSyntax .. => none

def builtinArray (element : Ty) : Ty :=
  .namedType ["[]"] [.typeTemplateArgument element]

def systemArray (arguments : List TemplateArgument) : Ty :=
  .namedType ["System", "Array"] arguments

def systemDictionary (key value : Ty) : Ty :=
  .namedType ["System", "Dictionary"] [.typeTemplateArgument key, .typeTemplateArgument value]

mutual

def resolveDefaultType (bindings : PartialBindings) : TypeSyntax → Option Ty
  | .autoType => none
  | .explicitType identifier => (lookupBoundType identifier bindings).or (some (.namedType [identifier] []))
  | .qualifiedTypeSyntax name arguments => (resolveDefaultArguments bindings arguments).map (.namedType name)
  | .builtinArrayTypeSyntax element => (resolveDefaultType bindings element).map builtinArray
  | .arrayTypeSyntax element =>
      (resolveDefaultType bindings element).map fun element => systemArray [.typeTemplateArgument element]
  | .fixedArrayTypeSyntax element size => do
      let elementType ← resolveDefaultType bindings element
      let sizeValue ← resolveDefaultValue bindings size
      pure (systemArray [.typeTemplateArgument elementType, .valueTemplateArgument sizeValue])
  | .dictionaryTypeSyntax key value => do
      let keyType ← resolveDefaultType bindings key
      let valueType ← resolveDefaultType bindings value
      pure (systemDictionary keyType valueType)
  | .callableTypeSyntax parameters result => do
      let parameterTypes ← resolveDefaultTypes bindings parameters
      let resultType ← resolveDefaultType bindings result
      pure (.functionType parameterTypes resultType)

def resolveDefaultArgument (bindings : PartialBindings) : TemplateArgumentSyntax → Option TemplateArgument
  | .templateTypeSyntax type => (resolveDefaultType bindings type).map .typeTemplateArgument
  | .templateValueArgumentSyntax value => (resolveDefaultValue bindings value).map .valueTemplateArgument

def resolveDefaultTypes (bindings : PartialBindings) : List TypeSyntax → Option (List Ty)
  | [] => some []
  | type :: types => do
      let first ← resolveDefaultType bindings type
      let rest ← resolveDefaultTypes bindings types
      pure (first :: rest)

def resolveDefaultArguments (bindings : PartialBindings) :
    List TemplateArgumentSyntax → Option (List TemplateArgument)
  | [] => some []
  | argument :: arguments => do
      let first ← resolveDefaultArgument bindings argument
      let rest ← resolveDefaultArguments bindings arguments
      pure (first :: rest)

end

def resolveDefault (bindings : PartialBindings) : TemplateDefault → Option TemplateArgument
  | .templateTypeDefault type => (resolveDefaultType bindings type).map .typeTemplateArgument
  | .templateValueDefault value => (resolveDefaultValue bindings value).map .valueTemplateArgument

/-- The parameters that a chain of defaults has not been through yet. -/
def openParameters (declaration : TemplateDeclarationDescriptor) (visited : List Int) :
    List TemplateParameterDescriptor :=
  declaration.templateDeclarationParameters.filter (·.templateDescriptorName.resolvedSymbol ∉ visited)

variable {declaration : TemplateDeclarationDescriptor} {identifier : Identifier}
  {parameter : TemplateParameterDescriptor}

theorem findParameter_mem (h : findParameter identifier declaration = some parameter) :
    parameter ∈ declaration.templateDeclarationParameters ∧
      parameter.templateDescriptorName.resolvedSpelling = identifier :=
  ⟨List.mem_of_find?_eq_some h, by simpa using List.find?_some h⟩

/-- Each step along a chain of defaults leaves one parameter fewer. -/
theorem openParameters_lt {visited : List Int} (h : findParameter identifier declaration = some parameter)
    (hnew : parameter.templateDescriptorName.resolvedSymbol ∉ visited) :
    (openParameters declaration (parameter.templateDescriptorName.resolvedSymbol :: visited)).length <
      (openParameters declaration visited).length := by
  have hfilter : openParameters declaration (parameter.templateDescriptorName.resolvedSymbol :: visited) =
      (openParameters declaration visited).filter
        (·.templateDescriptorName.resolvedSymbol ≠ parameter.templateDescriptorName.resolvedSymbol) := by
    unfold openParameters
    rw [List.filter_filter]
    exact List.filter_congr fun other _ => by simp [not_or]
  have hmem : parameter ∈ openParameters declaration visited := by
    simp [openParameters, (findParameter_mem h).1, hnew]
  rw [hfilter]
  exact List.length_filter_lt_length_iff_exists.mpr ⟨parameter, hmem, by simp⟩

/-- A default may be the name of a parameter declared later, whose default is followed then; the symbols visited
on the way reject a cycle. -/
def resolveDefaultFor (declaration : TemplateDeclarationDescriptor) (bindings : PartialBindings)
    (visited : List Int) (syntaxDefault : TemplateDefault) : Option TemplateArgument :=
  match syntaxDefault with
  | .templateTypeDefault (.explicitType identifier) =>
      match lookupBoundType identifier bindings with
      | some type => some (.typeTemplateArgument type)
      | none =>
          match _found : findParameter identifier declaration with
          | none => resolveDefault bindings syntaxDefault
          | some parameter =>
              if _seen : parameter.templateDescriptorName.resolvedSymbol ∈ visited then none
              else
                match parameter.templateDescriptorDefault with
                | none => none
                | some nested =>
                    resolveDefaultFor declaration bindings
                      (parameter.templateDescriptorName.resolvedSymbol :: visited) nested
  | .templateValueDefault (.templateNameSyntax _ [identifier]) =>
      match lookupBoundValue identifier bindings with
      | some value => some (.valueTemplateArgument value)
      | none =>
          match _found : findParameter identifier declaration with
          | none => none
          | some parameter =>
              if _seen : parameter.templateDescriptorName.resolvedSymbol ∈ visited then none
              else
                match parameter.templateDescriptorDefault with
                | none => none
                | some nested =>
                    resolveDefaultFor declaration bindings
                      (parameter.templateDescriptorName.resolvedSymbol :: visited) nested
  | _ => resolveDefault bindings syntaxDefault
termination_by (openParameters declaration visited).length
decreasing_by
  · exact openParameters_lt _found _seen
  · exact openParameters_lt _found _seen

/-! ## Parameters -/

/-- The number of arguments bound so far. -/
def bindingOffset (bindings : PartialBindings) : Nat :=
  (bindings.map (·.2.length)).sum

/-- Bindings, arguments that are left over, and problems. -/
def bindParameters (declaration : TemplateDeclarationDescriptor) (bindings : PartialBindings) :
    List TemplateParameterDescriptor → List TemplateArgument →
      PartialBindings × List TemplateArgument × List TemplateApplicationError
  | [], supplied => (bindings, supplied, [])
  | parameter :: remaining, supplied =>
      if parameter.templateDescriptorIsPack then
        let reserve := minimumRequired remaining
        let count := supplied.length - reserve
        let packArguments := supplied.take count
        let rest := supplied.drop count
        let checked := (packArguments.zipIdx (bindingOffset bindings)).map fun indexed =>
          validateCategory declaration parameter indexed.2 indexed.1
        let problems := checked.flatMap (·.2)
        let values := checked.map fun result => BoundTemplateArgument.explicitTemplateArgument result.1
        let nextBindings := bindings ++ [(parameter.templateDescriptorName, values)]
        let later := bindParameters declaration nextBindings remaining rest
        (later.1, later.2.1, problems ++ later.2.2)
      else
        match supplied with
        | argument :: rest =>
            let checked := validateCategory declaration parameter (bindingOffset bindings) argument
            let nextBindings :=
              bindings ++ [(parameter.templateDescriptorName, [.explicitTemplateArgument checked.1])]
            let later := bindParameters declaration nextBindings remaining rest
            (later.1, later.2.1, checked.2 ++ later.2.2)
        | [] =>
            match parameter.templateDescriptorDefault with
            | none =>
                (bindings, [], [.tooFewTemplateArguments declaration.templateDeclarationName
                  (minimumTemplateArity declaration) (bindingOffset bindings)])
            | some syntaxDefault =>
                match resolveDefaultFor declaration bindings
                    [parameter.templateDescriptorName.resolvedSymbol] syntaxDefault with
                | none =>
                    (bindings, [], [.unresolvedTemplateDefault declaration.templateDeclarationName
                      parameter.templateDescriptorName syntaxDefault])
                | some argument =>
                    let checked := validateCategory declaration parameter (bindingOffset bindings) argument
                    let nextBindings :=
                      bindings ++ [(parameter.templateDescriptorName, [.defaultTemplateArgument checked.1])]
                    let later := bindParameters declaration nextBindings remaining []
                    (later.1, later.2.1, checked.2 ++ later.2.2)

def bindKnownDeclaration (declaration : TemplateDeclarationDescriptor) (supplied : List TemplateArgument) :
    Except (List TemplateApplicationError) TemplateBinding :=
  match bindParameters declaration [] declaration.templateDeclarationParameters supplied with
  | (bindings, [], []) => .ok ⟨declaration, bindings⟩
  | (_, leftovers, []) =>
      .error [.tooManyTemplateArguments declaration.templateDeclarationName (supplied.length - leftovers.length)
        supplied.length]
  | (_, _, problems) => .error problems

/-- Binds the arguments of an application to the parameters of the template it names. -/
def bindTemplateApplication (catalog : TemplateCatalog) (application : TemplateApplication) :
    Except (List TemplateApplicationError) TemplateBinding :=
  match lookupTemplateDeclaration application.templateApplicationTarget catalog with
  | .error issue => .error [issue]
  | .ok declaration =>
      let supplied := application.templateApplicationArguments
      let minimumArity := minimumTemplateArity declaration
      if supplied.length < minimumArity then
        .error [.tooFewTemplateArguments application.templateApplicationTarget minimumArity supplied.length]
      else
        match maximumTemplateArity declaration with
        | some limit =>
            if supplied.length > limit then
              .error [.tooManyTemplateArguments application.templateApplicationTarget limit supplied.length]
            else bindKnownDeclaration declaration supplied
        | none => bindKnownDeclaration declaration supplied

/-! ## Substitution -/

/-- The arguments of a binding by the symbol of their parameter. -/
def flattenedBindings (binding : TemplateBinding) : List (Int × List TemplateArgument) :=
  binding.templateBindingArguments.map fun bound => (bound.1.resolvedSymbol, bound.2.map (·.argument))

def syntheticSpan : SourceSpan where
  sourceFile := "<template>"
  sourceStart := ⟨1, 1⟩
  sourceEnd := ⟨1, 1⟩

/-- Replaces a reference to a value parameter by its argument. -/
def substituteTemplateValue (binding : TemplateBinding) :
    TemplateValue → Except TemplateApplicationError TemplateValue
  | .templateValueParameter name =>
      match (flattenedBindings binding).lookup name.resolvedSymbol with
      | some [.valueTemplateArgument replacement] => .ok replacement
      | _ => .error (.unresolvedTemplateDefault binding.templateBindingDeclaration.templateDeclarationName name
          (.templateValueDefault (.templateNameSyntax syntheticSpan [name.resolvedSpelling])))
  | value => .ok value

mutual

/-- Replaces the type variables of a type by the arguments of their parameters. -/
def substituteType (binding : TemplateBinding) : Ty → Except TemplateApplicationError Ty
  | .typeVariable name =>
      match (flattenedBindings binding).lookup name.resolvedSymbol with
      | some [.typeTemplateArgument replacement] => .ok replacement
      | _ => .error (.unresolvedTemplateDefault binding.templateBindingDeclaration.templateDeclarationName name
          (.templateTypeDefault (.explicitType name.resolvedSpelling)))
  | .namedType name arguments => do
      let closed ← substituteTemplateArguments binding arguments
      pure (.namedType name closed)
  | .functionType parameters result => do
      let closedParameters ← substituteTypes binding parameters
      let closedResult ← substituteType binding result
      pure (.functionType closedParameters closedResult)
  | .errorType => pure .errorType

def substituteTemplateArgument (binding : TemplateBinding) :
    TemplateArgument → Except TemplateApplicationError TemplateArgument
  | .typeTemplateArgument type => do
      let closed ← substituteType binding type
      pure (.typeTemplateArgument closed)
  | .valueTemplateArgument value => do
      let closed ← substituteTemplateValue binding value
      pure (.valueTemplateArgument closed)

def substituteTypes (binding : TemplateBinding) : List Ty → Except TemplateApplicationError (List Ty)
  | [] => pure []
  | type :: types => do
      let first ← substituteType binding type
      let rest ← substituteTypes binding types
      pure (first :: rest)

def substituteTemplateArguments (binding : TemplateBinding) :
    List TemplateArgument → Except TemplateApplicationError (List TemplateArgument)
  | [] => pure []
  | argument :: arguments => do
      let first ← substituteTemplateArgument binding argument
      let rest ← substituteTemplateArguments binding arguments
      pure (first :: rest)

end

end Tala.Frontend
