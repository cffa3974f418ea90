import Tala.Syntax.Parts
import Tala.Frontend.FreshenRuns

/-!
# `Frontend.FreshenExact` — freshening is alpha-renaming

The final map of a traversal is a renaming of the binders of the declaration: injective, into the symbols from the
first one on, each of which it uses. The inventory of symbols covers every name, so that the first symbol is
above all of them.
-/

namespace Tala.Frontend

open Tala.Library Tala.Syntax

/-! ## Names anywhere in a tree -/

/-- The names that stand in a part itself, its types included, not in the parts inside it. -/
def ownUses : CodePart ResolvedName → List NameUse
  | .statement (.bindingStatement _ _ name annotated _) => .defined name :: typeUses annotated
  | .statement (.assignmentStatement _ name annotated _) => .referred name :: typeUses annotated
  | .statement (.forEachStatement _ _ name annotated _ _) => .defined name :: typeUses annotated
  | .statement (.incrementStatement _ name annotated) => .referred name :: typeUses annotated
  | .statement (.compoundAssignmentStatement _ _ name annotated _) => .referred name :: typeUses annotated
  | .statement _ => []
  | .expression (.nameExpression _ name annotated) => .referred name :: typeUses annotated
  | .expression (.literalExpression _ _ annotated) => typeUses annotated
  | .expression (.memberAccessExpression _ _ _ annotated) => typeUses annotated
  | .expression (.methodReferenceExpression _ _ _ annotated) => typeUses annotated
  | .expression (.callExpression _ _ _ annotated) => typeUses annotated
  | .expression (.unaryExpression _ _ _ annotated) => typeUses annotated
  | .expression (.binaryExpression _ _ _ _ annotated) => typeUses annotated
  | .expression (.isPatternExpression _ _ pattern annotated) => patternUses pattern ++ typeUses annotated
  | .expression (.conditionalExpression _ _ _ _ annotated) => typeUses annotated
  | .expression (.coalesceExpression _ _ _ annotated) => typeUses annotated
  | .expression (.assignmentExpression _ _ name _ annotated) => .referred name :: typeUses annotated
  | .expression (.incrementExpression _ _ name annotated) => .referred name :: typeUses annotated
  | .expression (.loopExpression _ _ annotated) => typeUses annotated
  | .expression (.blockExpression _ _ annotated) => typeUses annotated
  | .expression (.matchExpression _ _ _ annotated) => typeUses annotated
  | .expression (.callableExpression _ _ _ parameters _ annotated) => parametersUses parameters ++ typeUses annotated
  | .arm (.matchArm patterns _ _) => matchPatternsUses patterns
  | .capture (.capture _ _ name annotated _) => .defined name :: typeUses annotated

/-- The uses of a part and of all parts inside it. -/
def partUses : CodePart ResolvedName → List NameUse
  | .statement single => statementUses single
  | .expression value => expressionUses value
  | .arm alternative => matchArmUses alternative
  | .capture captured => captureUses captured

section Uses

variable {use : NameUse}

theorem mem_blockUses {block : List (Statement ResolvedName)} :
    use ∈ blockUses block ↔ ∃ single ∈ block, use ∈ statementUses single := by
  induction block with
  | nil => simp [blockUses]
  | cons single rest ih => simp [blockUses, ih]

variable {block : Option (List (Statement ResolvedName))} {initializer : Option (Statement ResolvedName)}
  {value : Option (Expression ResolvedName)} {values : List (Expression ResolvedName)}
  {arms : List (MatchArm ResolvedName)} {captures : List (Capture ResolvedName)}
  {body : CallableBody ResolvedName}

theorem mem_elseUses : use ∈ elseUses block ↔ ∃ single ∈ block.getD [], use ∈ statementUses single := by
  cases block <;> simp [elseUses, mem_blockUses]

theorem mem_initializerUses :
    use ∈ initializerUses initializer ↔ ∃ single ∈ initializer, use ∈ statementUses single := by
  cases initializer <;> simp [initializerUses]

theorem mem_optionalUses : use ∈ optionalUses value ↔ ∃ single ∈ value, use ∈ expressionUses single := by
  cases value <;> simp [optionalUses]

theorem mem_expressionsUses :
    use ∈ expressionsUses values ↔ ∃ single ∈ values, use ∈ expressionUses single := by
  induction values with
  | nil => simp [expressionsUses]
  | cons single rest ih => simp [expressionsUses, ih]

theorem mem_matchArmsUses : use ∈ matchArmsUses arms ↔ ∃ single ∈ arms, use ∈ matchArmUses single := by
  induction arms with
  | nil => simp [matchArmsUses]
  | cons single rest ih => simp [matchArmsUses, ih]

theorem mem_capturesUses : use ∈ capturesUses captures ↔ ∃ single ∈ captures, use ∈ captureUses single := by
  induction captures with
  | nil => simp [capturesUses]
  | cons single rest ih => simp [capturesUses, ih]

theorem mem_callableBodyUses :
    use ∈ callableBodyUses body ↔ ∃ child ∈ callableBodyParts body, use ∈ partUses child := by
  cases body <;> simp [callableBodyUses, callableBodyParts, partUses, mem_blockUses]

/-- A part uses what stands in it and what its children use. -/
theorem mem_partUses_step (part : CodePart ResolvedName) (use : NameUse) :
    use ∈ partUses part ↔ use ∈ ownUses part ∨ ∃ child ∈ part.children, use ∈ partUses child := by
  cases part with
  | statement single =>
      cases single <;> simp [partUses, ownUses, CodePart.children, statementUses, mem_blockUses, mem_elseUses,
        mem_initializerUses, mem_optionalUses, or_and_right, exists_or] <;> grind
  | expression value =>
      cases value <;> simp [partUses, ownUses, CodePart.children, expressionUses, mem_blockUses,
        mem_expressionsUses, mem_matchArmsUses, mem_capturesUses, mem_callableBodyUses, or_and_right, exists_or]
        <;> grind
  | arm alternative =>
      cases alternative
      simp [partUses, ownUses, CodePart.children, matchArmUses, mem_optionalUses, or_and_right, exists_or]
  | capture captured =>
      cases captured
      simp [partUses, ownUses, CodePart.children, captureUses, mem_optionalUses]
      grind

/-- The uses of a part stand in the parts it contains. -/
theorem mem_partUses_iff {part : CodePart ResolvedName} :
    use ∈ partUses part ↔ ∃ inner, part.Contains inner ∧ use ∈ ownUses inner :=
  mem_traversal_iff mem_partUses_step

end Uses

/-! ## The inventory of symbols -/

/-- The symbol of some of the uses. -/
def UsesSymbol (uses : List NameUse) (symbol : Int) : Prop := ∃ use ∈ uses, nameSymbol use.name = symbol

section Symbols

variable {symbol : Int}

@[simp] theorem usesSymbol_nil : ¬ UsesSymbol [] symbol := by simp [UsesSymbol]

@[simp] theorem usesSymbol_append {first second : List NameUse} :
    UsesSymbol (first ++ second) symbol ↔ UsesSymbol first symbol ∨ UsesSymbol second symbol := by
  simp [UsesSymbol, or_and_right, exists_or]

variable {name : ResolvedName} {rest : List NameUse}

@[simp] theorem usesSymbol_defined :
    UsesSymbol (.defined name :: rest) symbol ↔ symbol = nameSymbol name ∨ UsesSymbol rest symbol := by
  simp [UsesSymbol, NameUse.name, eq_comm]

@[simp] theorem usesSymbol_referred :
    UsesSymbol (.referred name :: rest) symbol ↔ symbol = nameSymbol name ∨ UsesSymbol rest symbol := by
  simp [UsesSymbol, NameUse.name, eq_comm]

mutual

theorem mem_typeSymbols (valueType : Ty) : symbol ∈ typeSymbols valueType ↔ UsesSymbol (typeUses valueType) symbol := by
  cases valueType with
  | namedType name arguments => simp [typeSymbols, typeUses, mem_argumentsSymbols]
  | functionType parameters result =>
      simp [typeSymbols, typeUses, mem_typesSymbols parameters, mem_typeSymbols result, or_comm]
  | typeVariable name => simp [typeSymbols, typeUses]
  | errorType => simp [typeSymbols, typeUses]

theorem mem_typesSymbols (types : List Ty) : symbol ∈ typesSymbols types ↔ UsesSymbol (typesUses types) symbol := by
  cases types with
  | nil => simp [typesSymbols, typesUses]
  | cons valueType remaining =>
      simp [typesSymbols, typesUses, mem_typeSymbols valueType, mem_typesSymbols remaining]

theorem mem_argumentSymbols (argument : TemplateArgument) :
    symbol ∈ argumentSymbols argument ↔ UsesSymbol (argumentUses argument) symbol := by
  cases argument with
  | typeTemplateArgument valueType => simp [argumentSymbols, argumentUses, mem_typeSymbols valueType]
  | valueTemplateArgument value => cases value <;> simp [argumentSymbols, argumentUses, valueUses]

theorem mem_argumentsSymbols (arguments : List TemplateArgument) :
    symbol ∈ argumentsSymbols arguments ↔ UsesSymbol (argumentsUses arguments) symbol := by
  cases arguments with
  | nil => simp [argumentsSymbols, argumentsUses]
  | cons argument remaining =>
      simp [argumentsSymbols, argumentsUses, mem_argumentSymbols argument, mem_argumentsSymbols remaining]

end

theorem mem_patternSymbols (pattern : Pattern) :
    symbol ∈ patternSymbols pattern ↔ UsesSymbol (patternUses pattern) symbol := by
  induction pattern with
  | notPattern nested annotated ih => simp [patternSymbols, patternUses, mem_typeSymbols, ih]
  | andPattern left right annotated ihl ihr => simp [patternSymbols, patternUses, mem_typeSymbols, ihl, ihr]
  | orPattern left right annotated ihl ihr => simp [patternSymbols, patternUses, mem_typeSymbols, ihl, ihr]
  | _ => simp [patternSymbols, patternUses, mem_typeSymbols]

theorem mem_parametersSymbols (parameters : List (Parameter ResolvedName)) :
    symbol ∈ parameters.flatMap parameterSymbols ↔ UsesSymbol (parametersUses parameters) symbol := by
  induction parameters with
  | nil => simp [parametersUses]
  | cons parameter remaining ih =>
      rw [List.flatMap_cons, List.mem_append, ih]
      simp [parameterSymbols, parametersUses, parameterUses, mem_typeSymbols, or_assoc]

theorem mem_matchArmSymbols (arm : MatchArm ResolvedName) :
    symbol ∈ matchArmSymbols arm ↔ UsesSymbol (matchPatternsUses (matchArmPatterns arm)) symbol := by
  unfold matchArmSymbols
  induction matchArmPatterns arm with
  | nil => simp [matchPatternsUses]
  | cons pattern remaining ih =>
      rw [List.flatMap_cons, List.mem_append, ih, matchPatternsUses, usesSymbol_append]
      refine or_congr_left ?_
      cases pattern with
      | matchTypePattern binding annotated =>
          cases binding <;> simp [matchPatternBinding, matchPatternAnnotation, matchPatternUses, mem_typeSymbols]
      | _ => simp [matchPatternBinding, matchPatternAnnotation, matchPatternUses, mem_typeSymbols]

/-- The symbols of a part and of all parts inside it. -/
def partSymbols : CodePart ResolvedName → List Int
  | .statement single => statementSymbols single
  | .expression value => expressionSymbols value
  | .arm alternative =>
      matchArmSymbols alternative ++ (optionalSymbols (matchArmGuard alternative) ++
        expressionSymbols (matchArmBody alternative))
  | .capture captured => captureSymbols captured

theorem mem_blockSymbols {block : List (Statement ResolvedName)} :
    symbol ∈ blockSymbols block ↔ ∃ single ∈ block, symbol ∈ statementSymbols single := by
  induction block with
  | nil => simp [blockSymbols]
  | cons single rest ih => simp [blockSymbols, ih]

theorem mem_elseSymbols {block : Option (List (Statement ResolvedName))} :
    symbol ∈ elseSymbols block ↔ ∃ single ∈ block.getD [], symbol ∈ statementSymbols single := by
  cases block <;> simp [elseSymbols, mem_blockSymbols]

theorem mem_initializerSymbols {initializer : Option (Statement ResolvedName)} :
    symbol ∈ initializerSymbols initializer ↔ ∃ single ∈ initializer, symbol ∈ statementSymbols single := by
  cases initializer <;> simp [initializerSymbols]

theorem mem_optionalSymbols {value : Option (Expression ResolvedName)} :
    symbol ∈ optionalSymbols value ↔ ∃ single ∈ value, symbol ∈ expressionSymbols single := by
  cases value <;> simp [optionalSymbols]

theorem mem_expressionsSymbols {values : List (Expression ResolvedName)} :
    symbol ∈ expressionsSymbols values ↔ ∃ single ∈ values, symbol ∈ expressionSymbols single := by
  induction values with
  | nil => simp [expressionsSymbols]
  | cons single rest ih => simp [expressionsSymbols, ih]

/-- The arms are listed in two passes, one for patterns and one for guards and bodies. -/
theorem mem_armsSymbols {arms : List (MatchArm ResolvedName)} :
    symbol ∈ armsExpressionsSymbols arms ∨ symbol ∈ arms.flatMap matchArmSymbols ↔
      ∃ single ∈ arms, symbol ∈ partSymbols (.arm single) := by
  induction arms with
  | nil => simp [armsExpressionsSymbols]
  | cons single rest ih =>
      rw [List.exists_mem_cons_iff, ← ih]
      cases single
      simp only [armsExpressionsSymbols, partSymbols, List.flatMap_cons, List.mem_append, matchArmGuard, matchArmBody]
      grind

theorem mem_capturesSymbols {captures : List (Capture ResolvedName)} :
    symbol ∈ capturesSymbols captures ↔ ∃ single ∈ captures, symbol ∈ captureSymbols single := by
  induction captures with
  | nil => simp [capturesSymbols]
  | cons single rest ih => simp [capturesSymbols, ih]

theorem mem_callableBodySymbols {body : CallableBody ResolvedName} :
    symbol ∈ callableBodySymbols body ↔ ∃ child ∈ callableBodyParts body, symbol ∈ partSymbols child := by
  cases body <;> simp [callableBodySymbols, callableBodyParts, partSymbols, mem_blockSymbols]

end Symbols

/-- A part has the symbols of what stands in it and of its children. -/
theorem mem_partSymbols_step (part : CodePart ResolvedName) (symbol : Int) :
    symbol ∈ partSymbols part ↔ symbol ∈ (ownUses part).map (fun use => nameSymbol use.name) ∨
      ∃ child ∈ part.children, symbol ∈ partSymbols child := by
  have hown : symbol ∈ (ownUses part).map (fun use => nameSymbol use.name) ↔ UsesSymbol (ownUses part) symbol := by
    simp [UsesSymbol]
  rw [hown]
  cases part with
  | statement single =>
      cases single <;> simp [partSymbols, ownUses, CodePart.children, statementSymbols, mem_typeSymbols,
        mem_blockSymbols, mem_elseSymbols, mem_initializerSymbols, mem_optionalSymbols, or_and_right, exists_or]
        <;> grind
  | expression value =>
      cases value with
      | matchExpression span subjects arms annotated =>
          have hchildren : (∃ child ∈ (CodePart.expression (.matchExpression span subjects arms annotated)).children,
              symbol ∈ partSymbols child) ↔ (∃ single ∈ subjects, symbol ∈ expressionSymbols single) ∨
                ∃ single ∈ arms, symbol ∈ partSymbols (.arm single) := by
            simp [CodePart.children, partSymbols, or_and_right, exists_or]
          rw [hchildren, ← mem_armsSymbols, partSymbols, expressionSymbols, ownUses, List.mem_append, List.mem_append,
            List.mem_append, mem_typeSymbols, mem_expressionsSymbols]
          simp only [or_assoc, or_comm, or_left_comm]
      | callableExpression span explicit captures parameters body annotated =>
          have hchildren : (∃ child ∈ (CodePart.expression (.callableExpression span explicit captures parameters body
              annotated)).children, symbol ∈ partSymbols child) ↔
                (∃ single ∈ captures, symbol ∈ captureSymbols single) ∨
                  ∃ child ∈ callableBodyParts body, symbol ∈ partSymbols child := by
            simp [CodePart.children, partSymbols, or_and_right, exists_or]
          rw [hchildren, partSymbols, expressionSymbols, ownUses, List.mem_append, List.mem_append, List.mem_append,
            mem_typeSymbols, mem_parametersSymbols, mem_capturesSymbols, mem_callableBodySymbols, usesSymbol_append]
          simp only [or_assoc, or_comm, or_left_comm]
      | _ =>
          simp [partSymbols, ownUses, CodePart.children, expressionSymbols, mem_typeSymbols, mem_patternSymbols,
            mem_blockSymbols, mem_expressionsSymbols, or_and_right, exists_or] <;> grind
  | arm alternative =>
      cases alternative
      simp [partSymbols, ownUses, CodePart.children, mem_matchArmSymbols, matchArmPatterns, matchArmGuard,
        matchArmBody, mem_optionalSymbols, or_and_right, exists_or]
  | capture captured =>
      cases captured
      simp [partSymbols, ownUses, CodePart.children, captureSymbols, mem_typeSymbols, mem_optionalSymbols]
      grind

/-- Some of the uses is the name's. -/
def HasName (name : ResolvedName) (uses : List NameUse) : Prop := ∃ use ∈ uses, use.name = name

variable {uses : List NameUse} {members : List (Declaration ResolvedName)} {symbol : Int}
  {tree : SyntaxTree ResolvedName} {declaration : Declaration ResolvedName}

theorem HasName.usesSymbol {name : ResolvedName} (h : HasName name uses) : UsesSymbol uses (nameSymbol name) :=
  h.imp fun _ huse => ⟨huse.1, by rw [huse.2]⟩

mutual

/-- A declaration holds a name: as its own, in its type, its parameters or its code, or in a member. -/
def NamedIn (name : ResolvedName) : Declaration ResolvedName → Prop
  | .typeDeclaration _ target annotated members =>
      target = name ∨ HasName name (typeUses annotated) ∨ NamedInMembers name members
  | .functionDeclaration _ target annotated _ parameters body _ _ =>
      target = name ∨ HasName name (typeUses annotated) ∨ HasName name (parametersUses parameters) ∨
        ∃ single ∈ body, ∃ part, CodePart.Contains (.statement single) part ∧ HasName name (ownUses part)
  | .templateTypeDeclaration _ target annotated parameters members =>
      target = name ∨ HasName name (typeUses annotated) ∨
        (∃ parameter ∈ parameters, parameter.templateParameterName = name ∨
          HasName name (typeUses ( TemplateParameter.templateParameterAnnotation parameter))) ∨
        NamedInMembers name members
  | .enumDeclaration _ target annotated _ => target = name ∨ HasName name (typeUses annotated)

def NamedInMembers (name : ResolvedName) : List (Declaration ResolvedName) → Prop
  | [] => False
  | member :: remaining => NamedIn name member ∨ NamedInMembers name remaining

end

mutual

/-- **The inventory covers every name.** -/
theorem mem_symbols_of_namedIn {name : ResolvedName} (declaration : Declaration ResolvedName)
    (h : NamedIn name declaration) : nameSymbol name ∈ declarationSymbols declaration := by
  cases declaration with
  | typeDeclaration span target annotated members =>
      rw [declarationSymbols, List.cons_append, List.mem_cons, List.mem_append, mem_typeSymbols]
      rcases h with rfl | h | h
      · exact .inl rfl
      · exact .inr (.inl h.usesSymbol)
      · exact .inr (.inr (mem_symbols_of_namedInMembers members h))
  | functionDeclaration span target annotated returnSyntax parameters body isStatic access =>
      rw [declarationSymbols, List.mem_append, List.cons_append, List.mem_cons, List.mem_append, mem_typeSymbols,
        mem_parametersSymbols]
      rcases h with rfl | h | h | ⟨single, hmem, part, hpart, use, huse, h⟩
      · exact .inl (.inl rfl)
      · exact .inl (.inr (.inl h.usesSymbol))
      · exact .inl (.inr (.inr h.usesSymbol))
      · have hsymbol : nameSymbol name ∈ partSymbols (.statement single) :=
          (mem_traversal_iff mem_partSymbols_step).mpr ⟨part, hpart, List.mem_map.mpr ⟨use, huse, by rw [h]⟩⟩
        exact .inr (mem_blockSymbols.mpr ⟨single, hmem, hsymbol⟩)
  | templateTypeDeclaration span target annotated parameters members =>
      rw [declarationSymbols, List.mem_append, List.cons_append, List.mem_cons, List.mem_append, mem_typeSymbols,
        List.mem_flatMap]
      rcases h with rfl | h | ⟨parameter, hmem, h⟩ | h
      · exact .inl (.inl rfl)
      · exact .inl (.inr (.inl h.usesSymbol))
      · refine .inl (.inr (.inr ⟨parameter, hmem, ?_⟩))
        rcases h with rfl | h
        · exact List.mem_cons_self ..
        · exact List.mem_cons_of_mem _ ((mem_typeSymbols _).mpr h.usesSymbol)
      · exact .inr (mem_symbols_of_namedInMembers members h)
  | enumDeclaration span target annotated underlying =>
      rw [declarationSymbols, List.mem_cons, mem_typeSymbols]
      rcases h with rfl | h
      · exact .inl rfl
      · exact .inr h.usesSymbol

theorem mem_symbols_of_namedInMembers {name : ResolvedName} (members : List (Declaration ResolvedName))
    (h : NamedInMembers name members) : nameSymbol name ∈ declarationsSymbols members := by
  cases members with
  | nil => exact h.elim
  | cons member remaining =>
      rw [declarationsSymbols, List.mem_append]
      exact h.imp (mem_symbols_of_namedIn member) (mem_symbols_of_namedInMembers remaining)

end

theorem namedIn_of_memberNames {use : NameUse}
    (h : use ∈ memberNames members) : NamedInMembers use.name members := by
  induction members with
  | nil => cases h
  | cons member rest ih =>
      cases member with
      | typeDeclaration span name annotated members =>
          exact (List.mem_cons.mp h).imp (fun h => .inl (by rw [h]; rfl)) ih
      | functionDeclaration span name annotated returnSyntax parameters body isStatic access =>
          exact (List.mem_cons.mp h).imp (fun h => .inl (by rw [h]; rfl)) ih
      | templateTypeDeclaration span name annotated parameters members => exact .inr (ih h)
      | enumDeclaration span name annotated underlying => exact .inr (ih h)

mutual

/-- The uses of a declaration are among its names. -/
theorem namedIn_of_use {use : NameUse} (declaration : Declaration ResolvedName)
    (h : use ∈ declarationUses declaration) : NamedIn use.name declaration := by
  cases declaration with
  | typeDeclaration span name annotated members =>
      rw [declarationUses, List.mem_cons, List.mem_append, List.mem_append] at h
      rcases h with rfl | h | h | h
      · exact .inl rfl
      · exact .inr (.inl ⟨use, h, rfl⟩)
      · exact .inr (.inr (namedIn_of_memberNames h))
      · exact .inr (.inr (namedIn_of_uses members h))
  | functionDeclaration span name annotated returnSyntax parameters body isStatic access =>
      rw [declarationUses, List.mem_cons, List.mem_append, List.mem_append] at h
      rcases h with rfl | h | h | h
      · exact .inl rfl
      · exact .inr (.inr (.inl ⟨use, h, rfl⟩))
      · exact .inr (.inl ⟨use, h, rfl⟩)
      · obtain ⟨single, hmem, hsingle⟩ := mem_blockUses.mp h
        obtain ⟨part, hpart, huse⟩ := (@mem_partUses_iff use (.statement single)).mp hsingle
        exact .inr (.inr (.inr ⟨single, hmem, part, hpart, use, huse, rfl⟩))
  | templateTypeDeclaration span name annotated parameters members => cases h
  | enumDeclaration span name annotated underlying => cases h

theorem namedIn_of_uses {use : NameUse} (members : List (Declaration ResolvedName))
    (h : use ∈ declarationsUses members) : NamedInMembers use.name members := by
  cases members with
  | nil => cases h
  | cons member rest =>
      rw [declarationsUses, List.mem_append] at h
      exact h.imp (namedIn_of_use member) (namedIn_of_uses rest)

end

theorem mem_declarationsSymbols :
    symbol ∈ declarationsSymbols members ↔ ∃ member ∈ members, symbol ∈ declarationSymbols member := by
  induction members with
  | nil => simp [declarationsSymbols]
  | cons member rest ih => simp [declarationsSymbols, ih]

theorem le_foldr_max {symbols : List Int} (h : symbol ∈ symbols) : symbol ≤ symbols.foldr max 0 := by
  induction symbols with
  | nil => cases h
  | cons first rest ih =>
      rw [List.foldr_cons]
      rcases List.mem_cons.mp h with rfl | h
      · exact le_max_left _ _
      · exact (ih h).trans (le_max_right _ _)

theorem zero_le_foldr_max (symbols : List Int) : 0 ≤ symbols.foldr max 0 := by
  induction symbols with
  | nil => exact le_refl 0
  | cons first rest ih => exact ih.trans (le_max_right _ _)

/-- No name of a program has a symbol above the maximum. -/
theorem le_maximumSymbol
    (hmem : declaration ∈ tree.syntaxDeclarations) {name : ResolvedName} (h : NamedIn name declaration) :
    name.resolvedSymbol ≤ maximumSymbolInTypedAST tree :=
  le_foldr_max (mem_declarationsSymbols.mpr ⟨declaration, hmem, mem_symbols_of_namedIn declaration h⟩)

/-! ## Alpha-renaming -/

/-- The freshened declaration is the declaration under a renaming of its binders to new symbols. -/
structure AlphaRenaming (first : Int) (declaration : Declaration ResolvedName) (result : FreshenResult)
    (ρ : ResolvedName → ResolvedName) : Prop where
  renamed : result.freshenedDeclaration = renameDeclaration ρ declaration
  /-- Names without a binder in the declaration stay. -/
  free : ∀ name, name.resolvedSymbol ∉ definedSymbols (declarationUses declaration) → ρ name = name
  starts : first ≤ result.nextFreshSymbol
  fresh : ∀ name, name.resolvedSymbol ∈ definedSymbols (declarationUses declaration) →
    first ≤ (ρ name).resolvedSymbol ∧ (ρ name).resolvedSymbol < result.nextFreshSymbol
  distinct : ∀ name other, name.resolvedSymbol ∈ definedSymbols (declarationUses declaration) →
    other.resolvedSymbol ∈ definedSymbols (declarationUses declaration) →
      (ρ name).resolvedSymbol = (ρ other).resolvedSymbol → name.resolvedSymbol = other.resolvedSymbol
  /-- No occurrence keeps the symbol of a binder. -/
  gone : ∀ use ∈ declarationUses result.freshenedDeclaration,
    use.name.resolvedSymbol ∉ definedSymbols (declarationUses declaration)
  /-- The next symbol is unused, and every symbol before it is. -/
  unused : ∀ use ∈ declarationUses result.freshenedDeclaration, use.name.resolvedSymbol < result.nextFreshSymbol
  used : ∀ symbol, first ≤ symbol → symbol < result.nextFreshSymbol →
    symbol ∈ definedSymbols (declarationUses result.freshenedDeclaration)
  /-- The mapping lists the binders. -/
  symbols : ∀ name, name.resolvedSymbol ∈ definedSymbols (declarationUses declaration) →
    (name.resolvedSymbol, (ρ name).resolvedSymbol) ∈ result.freshenedSymbols

/-- Every symbol of the declaration is a symbol of the program. -/
def OfProgram (tree : SyntaxTree ResolvedName) (declaration : Declaration ResolvedName) : Prop :=
  ∀ name, NamedIn name declaration → ∃ source ∈ tree.syntaxDeclarations, ∃ other, NamedIn other source ∧
    other.resolvedSymbol = name.resolvedSymbol

theorem definedSymbols_map {ρ : ResolvedName → ResolvedName} :
    symbol ∈ definedSymbols (uses.map (.map ρ)) ↔
      ∃ name, .defined name ∈ uses ∧ (ρ name).resolvedSymbol = symbol := by
  induction uses with
  | nil => simp
  | cons use rest ih =>
      cases use with
      | defined name => simp [NameUse.map, ih, eq_comm]
      | referred name => simp [NameUse.map, ih]

theorem alphaRenaming_of_bindsFirst {first : Int} (hfirst : maximumSymbolInTypedAST tree < first)
    (hprogram : OfProgram tree declaration) (hbinds : BindsFirst (declarationUses declaration)) :
    ∃ ρ, AlphaRenaming first declaration (freshenDeclaration first declaration) ρ := by
  have hzero : 0 ≤ maximumSymbolInTypedAST tree := zero_le_foldr_max _
  have hmax : max 1 first = first := max_eq_right (by omega)
  -- every symbol of the declaration is below the first new one
  have hold : ∀ use ∈ declarationUses declaration, use.name.resolvedSymbol < first := by
    intro use huse
    obtain ⟨source, hmem, other, hother, heq⟩ := hprogram _ (namedIn_of_use declaration huse)
    have hle := le_maximumSymbol hmem hother
    omega
  have holdDefined : ∀ symbol ∈ definedSymbols (declarationUses declaration), symbol < first := by
    intro symbol hsymbol
    obtain ⟨name, huse, rfl⟩ := mem_definedSymbols.mp hsymbol
    exact hold _ huse
  let start : FreshState := ⟨max 1 first, SortedMap.empty⟩
  generalize hfinal : afterUses (declarationUses declaration) start = final
  have hissued : Issued first final := by
    rw [← hfinal]
    refine Issued.after ⟨hmax.ge, ?_, ?_, ?_⟩
    · intro symbol given h
      cases h
    · intro first second given other h
      cases h
    · intro symbol hlow hhigh
      exact absurd (hhigh.trans_le hmax.le) (not_lt.mpr hlow)
  have hdomain : ∀ name : ResolvedName, name.resolvedSymbol ∈ definedSymbols (declarationUses declaration) →
      final.freshMap.find name.resolvedSymbol = some (givenName final name) := by
    intro name hname
    cases hfind : final.freshMap.find name.resolvedSymbol with
    | some given => simp [givenName, hfind]
    | none =>
        rw [← hfinal, find_afterUses_none] at hfind
        exact absurd hname hfind.2
  have hfree : ∀ name : ResolvedName, name.resolvedSymbol ∉ definedSymbols (declarationUses declaration) →
      givenName final name = name := by
    intro name hname
    have hfind : final.freshMap.find name.resolvedSymbol = none := by
      rw [← hfinal, find_afterUses_none]
      exact ⟨rfl, hname⟩
    simp [givenName, hfind]
  have hfollows : Follows (givenName final) (declarationUses declaration) start := by
    have hstart : ∀ symbol, start.freshMap.find symbol = none := fun _ => rfl
    have h := @follows_givenName start (declarationUses declaration) hstart [] hbinds
    rwa [List.nil_append, hfinal] at h
  have hrun := performs_declaration declaration start hfollows
  have hresult : freshenDeclaration first declaration = ⟨renameDeclaration (givenName final) declaration,
      final.freshMap.entries.map fun entry => (entry.1, entry.2.resolvedSymbol), final.freshNext⟩ := by
    have hrun' : freshDeclaration declaration ⟨max 1 first, SortedMap.empty⟩ =
        (renameDeclaration (givenName final) declaration, final) := hfinal ▸ hrun
    rw [freshenDeclaration, hrun']
  refine ⟨givenName final, ?_⟩
  rw [hresult]
  have hrange := fun (name : ResolvedName) hname => hissued.range _ _ (hdomain name hname)
  constructor
  · rfl
  · exact hfree
  · exact hissued.start
  · exact hrange
  · intro name other hname hother heq
    exact hissued.apart _ _ _ _ (hdomain name hname) (hdomain other hother) heq
  · intro use huse
    simp only [declarationUses_rename, List.mem_map] at huse
    obtain ⟨source, hsource, rfl⟩ := huse
    rw [NameUse.name_map]
    by_cases hname : source.name.resolvedSymbol ∈ definedSymbols (declarationUses declaration)
    · exact fun hmem => absurd (holdDefined _ hmem) (not_lt.mpr (hrange _ hname).1)
    · rwa [hfree _ hname]
  · intro use huse
    simp only [declarationUses_rename, List.mem_map] at huse
    obtain ⟨source, hsource, rfl⟩ := huse
    rw [NameUse.name_map]
    by_cases hname : source.name.resolvedSymbol ∈ definedSymbols (declarationUses declaration)
    · exact (hrange _ hname).2
    · rw [hfree _ hname]
      exact (hold _ hsource).trans_le hissued.start
  · intro symbol hlow hhigh
    obtain ⟨source, given, hfind, rfl⟩ := hissued.full symbol hlow hhigh
    have hdefined : source ∈ definedSymbols (declarationUses declaration) := by
      by_contra hnot
      have hnone : final.freshMap.find source = none := by
        rw [← hfinal, find_afterUses_none]
        exact ⟨rfl, hnot⟩
      rw [hfind] at hnone
      cases hnone
    obtain ⟨name, huse, rfl⟩ := mem_definedSymbols.mp hdefined
    simp only [declarationUses_rename]
    refine definedSymbols_map.mpr ⟨name, huse, ?_⟩
    rw [givenName, hfind]
    rfl
  · intro name hname
    exact List.mem_map.mpr ⟨(name.resolvedSymbol, givenName final name),
      SortedMap.find_eq_some_iff.mp (hdomain name hname), rfl⟩

def sampleName (symbol : Int) : ResolvedName := ⟨symbol, "x"⟩

def sampleFunction (symbol : Int) (parameters : List (Parameter ResolvedName)) (referred : Int) :
    Declaration ResolvedName :=
  .functionDeclaration emptySpan (sampleName symbol) .errorType .autoType parameters
    [.returnStatement emptySpan (some (.nameExpression emptySpan (sampleName referred) .errorType))] true
    .defaultAccess

def sampleType (symbol : Int) (members : List (Declaration ResolvedName)) : Declaration ResolvedName :=
  .typeDeclaration emptySpan (sampleName symbol) .errorType members

/-- A type with one method that returns its parameter. -/
def identityType : Declaration ResolvedName := sampleType 1 [sampleFunction 2 [⟨sampleName 3, .errorType⟩] 3]

theorem bindsFirst_identityType : BindsFirst (declarationUses identityType) := by
  have huses : declarationUses identityType = [.defined (sampleName 1), .defined (sampleName 2),
      .defined (sampleName 2), .defined (sampleName 3), .referred (sampleName 3)] := rfl
  intro before name rest h
  rw [huses] at h
  rcases before with _ | ⟨a, _ | ⟨b, _ | ⟨c, _ | ⟨d, _ | ⟨e, before⟩⟩⟩⟩⟩ <;> simp at h
  obtain ⟨rfl, rfl, rfl, rfl, rfl, rfl⟩ := h
  simp

end Tala.Frontend
