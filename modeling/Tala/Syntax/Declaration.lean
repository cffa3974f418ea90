import Tala.Syntax.Tree

/-!
# `Syntax.Declaration` — the syntax of types and typed declarations

Types and template arguments as they were written, template parameters with their defaults, and the
declarations of a program after type checking. The cases of an enum are left out.
-/

namespace Tala.Syntax

/-- An integral expression used as a template argument before folding. -/
inductive TemplateValueSyntax
  | templateIntegerSyntax (span : SourceSpan) (value : Int)
  | templateCharacterSyntax (span : SourceSpan) (scalar : Int)
  | templateBooleanSyntax (span : SourceSpan) (value : Bool)
  | templateNameSyntax (span : SourceSpan) (name : QualifiedName)
  | templateUnarySyntax (span : SourceSpan) (operator : UnaryOperator) (operand : TemplateValueSyntax)
  | templateBinarySyntax (span : SourceSpan) (operator : BinaryOperator) (left right : TemplateValueSyntax)

mutual

/-- Type as it was written. -/
inductive TypeSyntax
  | explicitType (identifier : Identifier)
  | qualifiedTypeSyntax (name : QualifiedName) (arguments : List TemplateArgumentSyntax)
  | builtinArrayTypeSyntax (element : TypeSyntax)
  | arrayTypeSyntax (element : TypeSyntax)
  | fixedArrayTypeSyntax (element : TypeSyntax) (size : TemplateValueSyntax)
  | dictionaryTypeSyntax (key value : TypeSyntax)
  | callableTypeSyntax (parameters : List TypeSyntax) (result : TypeSyntax)
  | autoType

inductive TemplateArgumentSyntax
  | templateTypeSyntax (type : TypeSyntax)
  | templateValueArgumentSyntax (value : TemplateValueSyntax)

end

mutual

/-- What a template parameter of a template accepts. -/
inductive TemplateParameterShape
  | templateParameterShape (kind : TemplateParameterShapeKind) (isPack : Bool)

inductive TemplateParameterShapeKind
  | templateTypeParameterShape
  | templateValueParameterShape (type : TypeSyntax)
  | templateTemplateParameterShape (shapes : List TemplateParameterShape)

end

inductive TemplateParameterKind
  | templateTypeParameter
  | templateValueParameterKind (type : TypeSyntax)
  | templateTemplateParameter (shapes : List TemplateParameterShape)

inductive TemplateDefault
  | templateTypeDefault (type : TypeSyntax)
  | templateValueDefault (value : TemplateValueSyntax)

structure TemplateParameter (name : Type) where
  templateParameterSpan : SourceSpan
  templateParameterName : name
  templateParameterAnnotation : Ty
  templateParameterKind : TemplateParameterKind
  templateParameterIsPack : Bool
  templateParameterDefault : Option TemplateDefault

inductive Access
  | defaultAccess | publicAccess | internalAccess | protectedAccess | privateAccess
  deriving DecidableEq, Repr

inductive Declaration (name : Type)
  | typeDeclaration (span : SourceSpan) (target : name) (annotated : Ty) (members : List (Declaration name))
  | functionDeclaration (span : SourceSpan) (target : name) (annotated : Ty) (returnSyntax : TypeSyntax)
      (parameters : List (Parameter name)) (body : List (Statement name)) (isStatic : Bool) (access : Access)
  | templateTypeDeclaration (span : SourceSpan) (target : name) (annotated : Ty)
      (parameters : List (TemplateParameter name)) (members : List (Declaration name))
  | enumDeclaration (span : SourceSpan) (target : name) (annotated : Ty) (underlying : Option TypeSyntax)

section Declarations

variable {name : Type}

def declarationName : Declaration name → name
  | .typeDeclaration _ target _ _ => target
  | .functionDeclaration _ target _ _ _ _ _ _ => target
  | .templateTypeDeclaration _ target _ _ _ => target
  | .enumDeclaration _ target _ _ => target

/-- Annotation of a declaration: after type checking, its type. -/
def declarationType : Declaration name → Ty
  | .typeDeclaration _ _ annotated _ => annotated
  | .functionDeclaration _ _ annotated _ _ _ _ _ => annotated
  | .templateTypeDeclaration _ _ annotated _ _ => annotated
  | .enumDeclaration _ _ annotated _ => annotated

end Declarations

/-- The declarations of a source file and their namespace. -/
structure SyntaxTree (name : Type) where
  syntaxNamespace : Option QualifiedName
  syntaxDeclarations : List (Declaration name)

end Tala.Syntax
