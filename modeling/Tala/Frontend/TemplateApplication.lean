import Tala.Syntax.Declaration

/-!
# `Frontend.TemplateApplication` — the templates of a program and their applications

The catalog describes the templates declared at the top of a program in the order of the source, each under its
qualified name.
-/

namespace Tala.Frontend

open Tala Tala.Syntax

/-- What a template parameter accepts as an argument. -/
inductive TemplateParameterCategory
  | typeParameterCategory
  | valueParameterCategory (type : Ty)
  | templateParameterCategory (shapes : List TemplateParameterShape)

structure TemplateParameterDescriptor where
  templateDescriptorName : ResolvedName
  templateDescriptorCategory : TemplateParameterCategory
  templateDescriptorIsPack : Bool
  templateDescriptorDefault : Option TemplateDefault
  templateDescriptorAnnotation : Ty

structure TemplateDeclarationDescriptor where
  templateDeclarationName : QualifiedName
  templateDeclarationSymbol : Int
  templateDeclarationParameters : List TemplateParameterDescriptor
  templateDeclarationMembers : List (ResolvedName × Ty)

structure TemplateCatalog where
  templateCatalogDeclarations : List TemplateDeclarationDescriptor

/-- A request for a template with its arguments in the order of the source. -/
structure TemplateApplication where
  templateApplicationTarget : QualifiedName
  templateApplicationArguments : List TemplateArgument
  deriving DecidableEq

/-! ## Catalog -/

def describeParameter (parameter : TemplateParameter ResolvedName) : TemplateParameterDescriptor where
  templateDescriptorName := parameter.templateParameterName
  templateDescriptorCategory := match parameter.templateParameterKind with
    | .templateTypeParameter => .typeParameterCategory
    | .templateValueParameterKind _ => .valueParameterCategory parameter.templateParameterAnnotation
    | .templateTemplateParameter shapes => .templateParameterCategory shapes
  templateDescriptorIsPack := parameter.templateParameterIsPack
  templateDescriptorDefault := parameter.templateParameterDefault
  templateDescriptorAnnotation := parameter.templateParameterAnnotation

def qualify : Option QualifiedName → Identifier → QualifiedName
  | none, name => [name]
  | some parts, name => parts ++ [name]

def describe (owner : Option QualifiedName) : Declaration ResolvedName → List TemplateDeclarationDescriptor
  | .templateTypeDeclaration _ name _ parameters members => [{
      templateDeclarationName := qualify owner name.resolvedSpelling
      templateDeclarationSymbol := name.resolvedSymbol
      templateDeclarationParameters := parameters.map describeParameter
      templateDeclarationMembers := members.map fun member => (declarationName member, declarationType member) }]
  | _ => []

/-- The templates at the top of a program. -/
def buildTemplateCatalog (tree : SyntaxTree ResolvedName) : TemplateCatalog :=
  ⟨tree.syntaxDeclarations.flatMap (describe tree.syntaxNamespace)⟩

end Tala.Frontend
