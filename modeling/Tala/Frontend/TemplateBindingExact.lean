import Tala.Frontend.TemplateDefaults
import Mathlib.Data.List.Forall2

/-!
# `Frontend.TemplateBindingExact` — what a binding binds, and when there is one

A binding holds the supplied arguments in order and one argument for every other parameter, and a parameter
without an argument gets its default with the parameter names in it replaced.
-/

namespace Tala.Frontend

open Tala Tala.Syntax

/-! ## Successful bindings -/

variable {declaration : TemplateDeclarationDescriptor}

/-- The bindings that grow from `bindings` to the final ones while parameters are bound without a problem. -/
inductive Binds (declaration : TemplateDeclarationDescriptor) :
    PartialBindings → List TemplateParameterDescriptor → List TemplateArgument → PartialBindings → Prop
  | done (bindings) : Binds declaration bindings [] [] bindings
  | pack {bindings parameter remaining supplied final}
      (hpack : parameter.templateDescriptorIsPack = true)
      (haccepts : ∀ argument ∈ supplied.take (supplied.length - minimumRequired remaining),
        acceptsCategory parameter.templateDescriptorCategory argument = true)
      (rest : Binds declaration
        (bindings ++ [(parameter.templateDescriptorName,
          (supplied.take (supplied.length - minimumRequired remaining)).map .explicitTemplateArgument)])
        remaining (supplied.drop (supplied.length - minimumRequired remaining)) final) :
      Binds declaration bindings (parameter :: remaining) supplied final
  | argument {bindings parameter remaining argument supplied final}
      (hsingle : parameter.templateDescriptorIsPack = false)
      (haccepts : acceptsCategory parameter.templateDescriptorCategory argument = true)
      (rest : Binds declaration
        (bindings ++ [(parameter.templateDescriptorName, [.explicitTemplateArgument argument])])
        remaining supplied final) :
      Binds declaration bindings (parameter :: remaining) (argument :: supplied) final
  | filled {bindings parameter remaining syntaxDefault argument final}
      (hsingle : parameter.templateDescriptorIsPack = false)
      (hdefault : parameter.templateDescriptorDefault = some syntaxDefault)
      (hresolved : resolveDefaultFor declaration bindings [parameter.templateDescriptorName.resolvedSymbol]
        syntaxDefault = some argument)
      (haccepts : acceptsCategory parameter.templateDescriptorCategory argument = true)
      (rest : Binds declaration
        (bindings ++ [(parameter.templateDescriptorName, [.defaultTemplateArgument argument])])
        remaining [] final) :
      Binds declaration bindings (parameter :: remaining) [] final

@[simp] theorem validateCategory_fst (parameter : TemplateParameterDescriptor) (index : Nat)
    (argument : TemplateArgument) : (validateCategory declaration parameter index argument).1 = argument := by
  unfold validateCategory
  split <;> rfl

@[simp] theorem validateCategory_snd_eq_nil (parameter : TemplateParameterDescriptor) (index : Nat)
    (argument : TemplateArgument) :
    (validateCategory declaration parameter index argument).2 = [] ↔
      acceptsCategory parameter.templateDescriptorCategory argument = true := by
  unfold validateCategory
  split <;> simp_all

/-- Checking the arguments of a pack changes none of them. -/
theorem checked_arguments (parameter : TemplateParameterDescriptor) (arguments : List TemplateArgument)
    (offset : Nat) :
    ((arguments.zipIdx offset).map fun indexed =>
      validateCategory declaration parameter indexed.2 indexed.1).map
        (fun result => BoundTemplateArgument.explicitTemplateArgument result.1) =
      arguments.map .explicitTemplateArgument := by
  induction arguments generalizing offset with
  | nil => rfl
  | cons argument arguments ih => simpa using ih (offset + 1)

theorem checked_problems (parameter : TemplateParameterDescriptor) (arguments : List TemplateArgument)
    (offset : Nat) :
    ((arguments.zipIdx offset).map fun indexed =>
      validateCategory declaration parameter indexed.2 indexed.1).flatMap (·.2) = [] ↔
      ∀ argument ∈ arguments, acceptsCategory parameter.templateDescriptorCategory argument = true := by
  induction arguments generalizing offset with
  | nil => simp
  | cons argument arguments ih =>
      simp only [List.zipIdx_cons, List.map_cons, List.flatMap_cons, List.append_eq_nil_iff,
        validateCategory_snd_eq_nil, ih, List.forall_mem_cons]

variable {bindings : PartialBindings} {parameters earlier : List TemplateParameterDescriptor}
  {supplied : List TemplateArgument} {parameter : TemplateParameterDescriptor} {name : DefaultName}
  {argument : TemplateArgument} {syntaxDefault : TemplateDefault} {category : TemplateParameterCategory}

/-- `bindParameters` succeeds exactly along `Binds`. -/
theorem bindParameters_eq_iff {final : PartialBindings} :
    bindParameters declaration bindings parameters supplied = (final, [], []) ↔
      Binds declaration bindings parameters supplied final := by
  constructor
  · intro h
    induction parameters generalizing bindings supplied with
    | nil =>
        simp only [bindParameters, Prod.mk.injEq, and_true] at h
        obtain ⟨rfl, rfl⟩ := h
        exact .done _
    | cons parameter remaining ih =>
        rw [bindParameters.eq_def] at h
        dsimp only at h
        split_ifs at h with hpack
        · simp only [Prod.mk.injEq, List.append_eq_nil_iff, checked_arguments, checked_problems] at h
          obtain ⟨hfinal, hleft, haccepts, hlater⟩ := h
          exact .pack hpack haccepts (ih (Prod.ext hfinal (Prod.ext hleft hlater)))
        · have hsingle : parameter.templateDescriptorIsPack = false := by simpa using hpack
          cases supplied with
          | cons argument supplied =>
              simp only [Prod.mk.injEq, List.append_eq_nil_iff, validateCategory_fst,
                validateCategory_snd_eq_nil] at h
              obtain ⟨hfinal, hleft, haccepts, hlater⟩ := h
              exact .argument hsingle haccepts (ih (Prod.ext hfinal (Prod.ext hleft hlater)))
          | nil =>
              cases hdefault : parameter.templateDescriptorDefault with
              | none => simp [hdefault] at h
              | some syntaxDefault =>
                  cases hresolved : resolveDefaultFor declaration bindings
                    [parameter.templateDescriptorName.resolvedSymbol] syntaxDefault with
                  | none => simp [hdefault, hresolved] at h
                  | some argument =>
                      simp only [hdefault, hresolved, Prod.mk.injEq, List.append_eq_nil_iff, validateCategory_fst,
                        validateCategory_snd_eq_nil] at h
                      obtain ⟨hfinal, hleft, haccepts, hlater⟩ := h
                      exact .filled hsingle hdefault hresolved haccepts
                        (ih (Prod.ext hfinal (Prod.ext hleft hlater)))
  · intro h
    induction h with
    | done bindings => rfl
    | pack hpack haccepts rest ih =>
        rw [bindParameters.eq_def]
        simp only [hpack, if_true, checked_arguments, (checked_problems _ _ _).mpr haccepts, ih, List.nil_append]
    | argument hsingle haccepts rest ih =>
        rw [bindParameters, if_neg (by simp [hsingle])]
        simp only [validateCategory_fst, (validateCategory_snd_eq_nil _ _ _).mpr haccepts, ih, List.nil_append]
    | filled hsingle hdefault hresolved haccepts rest ih =>
        rw [bindParameters, if_neg (by simp [hsingle])]
        simp only [hdefault, hresolved, validateCategory_fst, (validateCategory_snd_eq_nil _ _ _).mpr haccepts,
          ih, List.nil_append]

/-! ## What a run binds -/

def explicitArguments (bindings : PartialBindings) : List TemplateArgument :=
  (bindings.flatMap (·.2)).filterMap (·.explicit?)

@[simp] theorem explicitArguments_append (first second : PartialBindings) :
    explicitArguments (first ++ second) = explicitArguments first ++ explicitArguments second := by
  simp [explicitArguments]

@[simp] theorem explicitArguments_explicit (name : ResolvedName) (arguments : List TemplateArgument) :
    explicitArguments [(name, arguments.map .explicitTemplateArgument)] = arguments := by
  simp [explicitArguments, List.filterMap_map, BoundTemplateArgument.explicit?]

@[simp] theorem explicitArguments_default (name : ResolvedName) (argument : TemplateArgument) :
    explicitArguments [(name, [.defaultTemplateArgument argument])] = [] := rfl

/-- The supplied arguments stay in their order. -/
theorem Binds.explicit {final : PartialBindings} (h : Binds declaration bindings parameters supplied final) :
    explicitArguments final = explicitArguments bindings ++ supplied := by
  induction h with
  | done bindings => simp
  | pack hpack haccepts rest ih =>
      rw [ih, explicitArguments_append, explicitArguments_explicit, List.append_assoc, List.take_append_drop]
  | @argument bindings parameter remaining argument supplied final hsingle haccepts rest ih =>
      have hone := explicitArguments_explicit parameter.templateDescriptorName [argument]
      simp only [List.map_cons, List.map_nil] at hone
      rw [ih, explicitArguments_append, hone]
      simp
  | filled hsingle hdefault hresolved haccepts rest ih => simp [ih]

/-- The binding of one parameter: a single accepted argument unless it is a pack. -/
def Bound (parameter : TemplateParameterDescriptor) (bound : ResolvedName × List BoundTemplateArgument) : Prop :=
  bound.1 = parameter.templateDescriptorName ∧
    (parameter.templateDescriptorIsPack = false → ∃ argument, bound.2 = [argument] ∧
      acceptsCategory parameter.templateDescriptorCategory argument.argument = true)

theorem Binds.bound {final : PartialBindings} (h : Binds declaration bindings parameters supplied final) :
    ∃ bound, final = bindings ++ bound ∧ List.Forall₂ Bound parameters bound := by
  induction h with
  | done bindings => exact ⟨[], (List.append_nil _).symm, .nil⟩
  | pack hpack haccepts rest ih =>
      obtain ⟨bound, rfl, hall⟩ := ih
      exact ⟨_, List.append_assoc .., .cons ⟨rfl, by simp [hpack]⟩ hall⟩
  | argument hsingle haccepts rest ih =>
      obtain ⟨bound, rfl, hall⟩ := ih
      exact ⟨_, List.append_assoc .., .cons ⟨rfl, fun _ => ⟨_, rfl, haccepts⟩⟩ hall⟩
  | filled hsingle hdefault hresolved haccepts rest ih =>
      obtain ⟨bound, rfl, hall⟩ := ih
      exact ⟨_, List.append_assoc .., .cons ⟨rfl, fun _ => ⟨_, rfl, haccepts⟩⟩ hall⟩

/-! ## The arguments of the parameters -/

theorem bound_names (h : List.Forall₂ Bound parameters bindings) :
    bindings.map (·.1) = parameters.map (·.templateDescriptorName) := by
  induction h with
  | nil => rfl
  | cons hbound _ ih => simp [hbound.1, ih]

theorem bound_ofParameters (h : List.Forall₂ Bound parameters bindings)
    (hsubset : ∀ parameter ∈ parameters, parameter ∈ declaration.templateDeclarationParameters) :
    OfParameters declaration bindings := by
  intro bound hbound
  have hname : bound.1 ∈ parameters.map (·.templateDescriptorName) :=
    bound_names h ▸ List.mem_map_of_mem hbound
  obtain ⟨parameter, hparameter, hname⟩ := List.mem_map.mp hname
  exact ⟨parameter, hsubset parameter hparameter, hname.symm⟩

/-- A parameter that has been bound is found by its spelling. -/
theorem bound_lookup (h : List.Forall₂ Bound parameters bindings)
    (hdistinct : (parameters.map (·.templateDescriptorName.resolvedSpelling)).Nodup)
    (hmem : parameter ∈ parameters) :
    ∃ values, (parameter.templateDescriptorName, values) ∈ bindings ∧
      Bound parameter (parameter.templateDescriptorName, values) ∧
      lookupBySpelling parameter.templateDescriptorName.resolvedSpelling bindings = some values := by
  induction h with
  | nil => cases hmem
  | @cons first bound parameters bindings hbound _ ih =>
      rw [List.map_cons, List.nodup_cons] at hdistinct
      obtain ⟨name, values⟩ := bound
      obtain rfl : name = first.templateDescriptorName := hbound.1
      rw [← List.singleton_append, lookupBySpelling_append, lookupBySpelling_single]
      rcases List.mem_cons.mp hmem with rfl | hmem
      · exact ⟨values, List.mem_cons_self, hbound, by simp⟩
      · obtain ⟨others, hothers, hother, hlookup⟩ := ih hdistinct.2 hmem
        have hne : first.templateDescriptorName.resolvedSpelling ≠
            parameter.templateDescriptorName.resolvedSpelling :=
          fun heq => hdistinct.1 (heq ▸ List.mem_map_of_mem hmem)
        exact ⟨others, List.mem_cons_of_mem _ hothers, hother, by rw [if_neg hne, Option.none_or, hlookup]⟩

theorem bound_lookup_eq_none (h : List.Forall₂ Bound parameters bindings) {identifier : Identifier}
    (hother : ∀ parameter ∈ parameters, parameter.templateDescriptorName.resolvedSpelling ≠ identifier) :
    lookupBySpelling identifier bindings = none := by
  rw [lookupBySpelling_eq_none]
  intro bound hbound
  have hname : bound.1 ∈ parameters.map (·.templateDescriptorName) :=
    bound_names h ▸ List.mem_map_of_mem hbound
  obtain ⟨parameter, hparameter, hname⟩ := List.mem_map.mp hname
  exact hname ▸ hother parameter hparameter

/-- The arguments of a parameter, found by its symbol. -/
theorem lookup_flattened (binding : TemplateBinding)
    (hsymbols : (binding.templateBindingArguments.map (·.1.resolvedSymbol)).Nodup) {name : ResolvedName}
    {values : List BoundTemplateArgument} (hmem : (name, values) ∈ binding.templateBindingArguments) :
    (flattenedBindings binding).lookup name.resolvedSymbol = some (values.map (·.argument)) := by
  obtain ⟨declaration, bindings⟩ := binding
  dsimp only [flattenedBindings] at hsymbols hmem ⊢
  induction bindings with
  | nil => cases hmem
  | cons first bindings ih =>
      rw [List.map_cons, List.nodup_cons] at hsymbols
      rw [List.map_cons, List.lookup_cons]
      rcases List.mem_cons.mp hmem with rfl | hmem
      · simp
      · have hne : (name.resolvedSymbol == first.1.resolvedSymbol) = false := by
          rw [beq_eq_false_iff_ne]
          exact fun heq => hsymbols.1 (heq ▸ List.mem_map_of_mem (f := (·.1.resolvedSymbol)) hmem)
        rw [hne]
        exact ih hsymbols.2 hmem

/-! ## Default after default -/

variable {later : List TemplateParameterDescriptor} {visited : List Int} {value : TemplateValueSyntax}
  {binding : TemplateBinding}

theorem Distinct.not_mem_left (hdistinct : Distinct declaration)
    (hsplit : declaration.templateDeclarationParameters = earlier ++ parameter :: later) :
    ∀ other ∈ earlier,
      other.templateDescriptorName.resolvedSpelling ≠ parameter.templateDescriptorName.resolvedSpelling := by
  have hnodup := hdistinct.spellings
  rw [hsplit, List.map_append, List.map_cons] at hnodup
  intro other hother heq
  exact List.disjoint_of_nodup_append hnodup (List.mem_map_of_mem hother) (heq ▸ List.mem_cons_self)

/-- After the supplied arguments the parameters are filled one by one. -/
theorem Binds.fills (hdistinct : Distinct declaration) {final : PartialBindings}
    (h : Binds declaration bindings parameters supplied final) (hnone : supplied = [])
    (hsplit : declaration.templateDeclarationParameters = earlier ++ parameters)
    (hbound : List.Forall₂ Bound earlier bindings) : Fills declaration bindings final := by
  induction h generalizing earlier with
  | done bindings => exact .refl
  | @pack bindings parameter remaining supplied final hpack haccepts rest ih =>
      subst hnone
      simp only [List.take_nil, List.map_nil, List.drop_nil] at ih
      have hnext : List.Forall₂ Bound (earlier ++ [parameter])
          (bindings ++ [(parameter.templateDescriptorName, [])]) :=
        List.rel_append hbound (.cons ⟨rfl, by simp [hpack]⟩ .nil)
      refine .head ⟨parameter, by simp [hsplit], [], rfl, ?_, by simp [hpack]⟩
        (ih trivial (by rw [hsplit, List.append_assoc, List.singleton_append]) hnext)
      exact bound_lookup_eq_none hbound (hdistinct.not_mem_left hsplit)
  | argument => cases hnone
  | @filled bindings parameter remaining syntaxDefault argument final hsingle hdefault hresolved haccepts rest ih =>
      have hnext : List.Forall₂ Bound (earlier ++ [parameter])
          (bindings ++ [(parameter.templateDescriptorName, [.defaultTemplateArgument argument])]) :=
        List.rel_append hbound (.cons ⟨rfl, fun _ => ⟨_, rfl, haccepts⟩⟩ .nil)
      refine .head ⟨parameter, by simp [hsplit], _, rfl, ?_, fun _ => ⟨syntaxDefault, argument, hdefault, rfl, ?_⟩⟩
        (ih rfl (by rw [hsplit, List.append_assoc, List.singleton_append]) hnext)
      · exact bound_lookup_eq_none hbound (hdistinct.not_mem_left hsplit)
      · exact resolveDefaultFor_eq_some.mp hresolved

/-- A parameter has one entry in a list of bindings. -/
theorem bound_unique (h : List.Forall₂ Bound parameters bindings)
    (hsymbols : (parameters.map (·.templateDescriptorName.resolvedSymbol)).Nodup) :
    (bindings.map (·.1.resolvedSymbol)).Nodup := by
  have hnames := congrArg (List.map (·.resolvedSymbol)) (bound_names h)
  rw [List.map_map, List.map_map] at hnames
  exact hnames ▸ hsymbols

/-- A bound parameter keeps its values. -/
theorem Binds.given_eq {final : PartialBindings} {name : ResolvedName} {given values : List BoundTemplateArgument}
    (h : Binds declaration (bindings ++ [(name, given)]) parameters supplied final)
    (hsymbols : (final.map (·.1.resolvedSymbol)).Nodup) (hmem : (name, values) ∈ final) : values = given := by
  obtain ⟨bound, rfl, -⟩ := h.bound
  exact congrArg Prod.snd (List.inj_on_of_nodup_map hsymbols hmem
    (List.mem_append_left _ (List.mem_append_right _ (List.mem_singleton_self _))) rfl)

/-- The moment at which a parameter got its default. -/
theorem Binds.filled_at {final : PartialBindings} (h : Binds declaration bindings parameters supplied final)
    (hsymbols : (final.map (·.1.resolvedSymbol)).Nodup) {middle : List TemplateParameterDescriptor}
    (hsplit : parameters = middle ++ parameter :: later) (hbound : List.Forall₂ Bound earlier bindings)
    (hmem : (parameter.templateDescriptorName, [.defaultTemplateArgument argument]) ∈ final) :
    ∃ reached syntaxDefault, List.Forall₂ Bound (earlier ++ middle) reached ∧
      parameter.templateDescriptorDefault = some syntaxDefault ∧
      Binds declaration reached (parameter :: later) [] final ∧
      resolveDefaultFor declaration reached [parameter.templateDescriptorName.resolvedSymbol] syntaxDefault =
        some argument := by
  induction h generalizing earlier middle with
  | done bindings => simp at hsplit
  | @pack bindings first remaining supplied final hpack haccepts rest ih =>
      cases middle with
      | nil =>
          obtain ⟨rfl, rfl⟩ := List.cons.inj hsplit
          have hfirst := congrArg (·.map (·.explicit?)) (rest.given_eq hsymbols hmem)
          cases hgiven : supplied.take (supplied.length - minimumRequired remaining) <;>
            simp [hgiven, BoundTemplateArgument.explicit?] at hfirst
      | cons other middle =>
          obtain ⟨rfl, rfl⟩ := List.cons.inj hsplit
          obtain ⟨reached, syntaxDefault, hreached, hrest⟩ := ih hsymbols rfl
            (List.rel_append hbound (.cons ⟨rfl, by simp [hpack]⟩ .nil)) hmem
          exact ⟨reached, syntaxDefault, by simpa using hreached, hrest⟩
  | @argument bindings first remaining given supplied final hsingle haccepts rest ih =>
      cases middle with
      | nil =>
          obtain ⟨rfl, rfl⟩ := List.cons.inj hsplit
          simpa using rest.given_eq hsymbols hmem
      | cons other middle =>
          obtain ⟨rfl, rfl⟩ := List.cons.inj hsplit
          obtain ⟨reached, syntaxDefault, hreached, hrest⟩ := ih hsymbols rfl
            (List.rel_append hbound (.cons ⟨rfl, fun _ => ⟨_, rfl, haccepts⟩⟩ .nil)) hmem
          exact ⟨reached, syntaxDefault, by simpa using hreached, hrest⟩
  | @filled bindings first remaining syntaxDefault given final hsingle hdefault hresolved haccepts rest ih =>
      cases middle with
      | nil =>
          obtain ⟨rfl, rfl⟩ := List.cons.inj hsplit
          obtain rfl : argument = given := by simpa using rest.given_eq hsymbols hmem
          exact ⟨bindings, syntaxDefault, by simpa using hbound, hdefault,
            .filled hsingle hdefault hresolved haccepts rest, hresolved⟩
      | cons other middle =>
          obtain ⟨rfl, rfl⟩ := List.cons.inj hsplit
          obtain ⟨reached, syntaxDefault, hreached, hrest⟩ := ih hsymbols rfl
            (List.rel_append hbound (.cons ⟨rfl, fun _ => ⟨_, rfl, haccepts⟩⟩ .nil)) hmem
          exact ⟨reached, syntaxDefault, by simpa using hreached, hrest⟩

theorem Ordered.grounded (h : Ordered declaration earlier syntaxDefault)
    (hbound : List.Forall₂ Bound earlier bindings)
    (hdistinct : (earlier.map (·.templateDescriptorName.resolvedSpelling)).Nodup) :
    Grounded declaration bindings syntaxDefault := by
  intro reached hreached
  obtain ⟨hdirect, hnested⟩ := h reached hreached
  refine ⟨fun name hname parameter hfind => (hdirect name hname parameter hfind).1, ?_⟩
  intro name hname parameter hfind
  obtain ⟨hearlier, -⟩ := hnested name hname parameter hfind
  obtain ⟨values, -, -, hlookup⟩ := bound_lookup hbound hdistinct hearlier
  exact ⟨values, (findParameter_mem hfind).2 ▸ hlookup⟩

/-- Every name in an ordered default stands for a single argument. -/
theorem Ordered.usable (h : Ordered declaration earlier syntaxDefault) (hname : name ∈ defaultNames syntaxDefault)
    (hfind : findParameter name.identifier declaration = some parameter) :
    Usable name parameter := by
  obtain ⟨hdirect, hnested⟩ := h _ .refl
  cases hdirectName : directName syntaxDefault with
  | none => exact (hnested name (nestedNames_nested hdirectName ▸ hname) parameter hfind).2
  | some direct =>
      rw [defaultNames_direct hdirectName, List.mem_singleton] at hname
      exact hdirect name (hname ▸ hdirectName) parameter hfind

/-- A usable name agrees with the final binding of its parameter. -/
theorem agrees_of_usable (hdistinct : Distinct declaration) {final : PartialBindings}
    (hall : List.Forall₂ Bound declaration.templateDeclarationParameters final)
    (husable : ∀ parameter, findParameter name.identifier declaration = some parameter → Usable name parameter) :
    Agrees declaration ⟨declaration, final⟩ name := by
  cases hfind : findParameter name.identifier declaration with
  | none => exact .inl ⟨hfind, (bound_ofParameters hall fun _ => id).lookup_eq_none hfind⟩
  | some parameter =>
      obtain ⟨hmem, hspelling⟩ := findParameter_mem hfind
      obtain ⟨values, hvalues, ⟨-, hsingle⟩, hlookup⟩ := bound_lookup hall hdistinct.spellings hmem
      obtain ⟨bound, rfl, haccepts⟩ := hsingle (husable parameter hfind).1
      exact .inr ⟨parameter, bound, hfind, hspelling ▸ hlookup, (husable parameter hfind).takes haccepts,
        lookup_flattened ⟨declaration, final⟩ (bound_unique hall hdistinct.symbols) hvalues⟩

/-- What a chain gives under the final bindings, the default gives by itself: all names are bound there. -/
theorem Resolves.final (binding : TemplateBinding)
    (h : Resolves declaration binding.templateBindingArguments visited syntaxDefault argument)
    (hnames : ∀ name ∈ defaultNames syntaxDefault, Agrees declaration binding name) :
    resolveDefault binding.templateBindingArguments syntaxDefault = some argument := by
  cases h with
  | nested hname hresolved => exact hresolved
  | other hname hbound hfind hresolved => exact hresolved
  | @bound _ _ name _ hname hbound =>
      unfold directName at hname
      split at hname
      · obtain rfl := Option.some.inj hname
        obtain ⟨type, htype, rfl⟩ := Option.map_eq_some_iff.mp hbound
        simp [resolveDefault, resolveDefaultType, htype]
      · obtain rfl := Option.some.inj hname
        obtain ⟨value, hvalue, rfl⟩ := Option.map_eq_some_iff.mp hbound
        simp [resolveDefault, resolveDefaultValue, hvalue]
      · cases hname
  | @next _ _ name _ parameter nested hname hbound hfind hnew hdefault rest =>
      have hmem : name ∈ defaultNames syntaxDefault := by simp [defaultNames_direct hname]
      rcases hnames name hmem with ⟨hnone, -⟩ | ⟨named, bound, hnamed, hlookup, htakes, -⟩
      · simp [hnone] at hfind
      · have := lookupBound_eq_some.mpr ⟨bound, hlookup, rfl, htakes⟩
        simp [hbound] at this

/-- A default in a binding is the default of its parameter with all parameters in it replaced. -/
theorem Binds.default_replaced (hdistinct : Distinct declaration)
    {final : PartialBindings} (h : Binds declaration [] declaration.templateDeclarationParameters supplied final)
    (hsplit : declaration.templateDeclarationParameters = earlier ++ parameter :: later)
    (hmem : (parameter.templateDescriptorName, [.defaultTemplateArgument argument]) ∈ final) :
    ∃ syntaxDefault, parameter.templateDescriptorDefault = some syntaxDefault ∧
      (Ordered declaration earlier syntaxDefault →
        ∃ opened, openDefault declaration syntaxDefault = some opened ∧
          substituteTemplateArgument ⟨declaration, final⟩ opened = .ok argument) := by
  obtain ⟨_, rfl, hall⟩ := h.bound
  obtain ⟨reached, syntaxDefault, hreached, hdefault, hrest, hresolved⟩ :=
    h.filled_at (bound_unique hall hdistinct.symbols) hsplit .nil hmem
  rw [List.nil_append] at hreached
  refine ⟨syntaxDefault, hdefault, fun hordered => ?_⟩
  have hearlier : (earlier.map (·.templateDescriptorName.resolvedSpelling)).Nodup := by
    have hnodup := hdistinct.spellings
    rw [hsplit, List.map_append] at hnodup
    exact hnodup.of_append_left
  have hof : OfParameters declaration reached :=
    bound_ofParameters hreached fun other hother => by simp [hsplit, hother]
  have hresolves : Resolves declaration final [parameter.templateDescriptorName.resolvedSymbol] syntaxDefault
      argument :=
    (resolveDefaultFor_eq_some.mp hresolved).fills hdistinct hof (hrest.fills hdistinct rfl hsplit hreached)
      (hordered.grounded hreached hearlier) (List.Subset.refl _)
  have hnames : ∀ name ∈ defaultNames syntaxDefault, Agrees declaration ⟨declaration, final⟩ name :=
    fun name hname => agrees_of_usable hdistinct hall fun other hfind => hordered.usable hname hfind
  exact openDefault_replaced hnames (Resolves.final ⟨declaration, final⟩ hresolves hnames)

/-! ## When there is a binding -/

/-- The arguments dealt from the left: a pack takes all that the required parameters after it leave. -/
def deal : List TemplateParameterDescriptor → List TemplateArgument →
    List (TemplateParameterDescriptor × List TemplateArgument)
  | [], _ => []
  | parameter :: remaining, supplied =>
      let count := if parameter.templateDescriptorIsPack then supplied.length - minimumRequired remaining else 1
      (parameter, supplied.take count) :: deal remaining (supplied.drop count)

/-- Every parameter that needs an argument is dealt one. -/
def Reached (parameters : List TemplateParameterDescriptor) (supplied : List TemplateArgument) : Prop :=
  ∀ entry ∈ deal parameters supplied, entry.1.required = true → entry.2 ≠ []

/-- A value that is written without arithmetic: a literal, or the name of a parameter. -/
def EvaluableValue (declaration : TemplateDeclarationDescriptor) : TemplateValueSyntax → Prop
  | .templateNameSyntax _ [identifier] => findParameter identifier declaration ≠ none
  | .templateNameSyntax .. => False
  | .templateUnarySyntax .. => False
  | .templateBinarySyntax .. => False
  | _ => True

mutual

def EvaluableType (declaration : TemplateDeclarationDescriptor) : TypeSyntax → Prop
  | .autoType => False
  | .explicitType _ => True
  | .qualifiedTypeSyntax _ arguments => EvaluableArguments declaration arguments
  | .builtinArrayTypeSyntax element => EvaluableType declaration element
  | .arrayTypeSyntax element => EvaluableType declaration element
  | .fixedArrayTypeSyntax element size => EvaluableType declaration element ∧ EvaluableValue declaration size
  | .dictionaryTypeSyntax key value => EvaluableType declaration key ∧ EvaluableType declaration value
  | .callableTypeSyntax parameters result => EvaluableTypes declaration parameters ∧ EvaluableType declaration result

def EvaluableArgument (declaration : TemplateDeclarationDescriptor) : TemplateArgumentSyntax → Prop
  | .templateTypeSyntax type => EvaluableType declaration type
  | .templateValueArgumentSyntax value => EvaluableValue declaration value

def EvaluableTypes (declaration : TemplateDeclarationDescriptor) : List TypeSyntax → Prop
  | [] => True
  | type :: types => EvaluableType declaration type ∧ EvaluableTypes declaration types

def EvaluableArguments (declaration : TemplateDeclarationDescriptor) : List TemplateArgumentSyntax → Prop
  | [] => True
  | argument :: arguments => EvaluableArgument declaration argument ∧ EvaluableArguments declaration arguments

end

def Evaluable (declaration : TemplateDeclarationDescriptor) : TemplateDefault → Prop
  | .templateTypeDefault type => EvaluableType declaration type
  | .templateValueDefault value => EvaluableValue declaration value

/-- A default of the category of its parameter. -/
def Matches (declaration : TemplateDeclarationDescriptor) : TemplateParameterCategory → TemplateDefault → Prop
  | .typeParameterCategory, .templateTypeDefault _ => True
  | .valueParameterCategory _, .templateValueDefault _ => True
  | .templateParameterCategory _, .templateTypeDefault (.explicitType identifier) =>
      ∀ parameter, findParameter identifier declaration = some parameter →
        ∃ shapes, parameter.templateDescriptorCategory = .templateParameterCategory shapes
  | .templateParameterCategory _, .templateTypeDefault (.qualifiedTypeSyntax _ []) => True
  | _, _ => False

theorem resolveDefaultValue_of_evaluable (hvalue : EvaluableValue declaration value)
    (hnames : ∀ name ∈ valueNames value, ∀ parameter, findParameter name.identifier declaration = some parameter →
      ∃ argument, lookupBound bindings name = some argument) :
    ∃ resolved, resolveDefaultValue bindings value = some resolved := by
  unfold EvaluableValue at hvalue
  split at hvalue
  · rename_i span identifier
    obtain ⟨parameter, hfind⟩ := Option.ne_none_iff_exists'.mp hvalue
    obtain ⟨argument, hbound⟩ := hnames (.valueName identifier) (by simp [valueNames]) parameter hfind
    obtain ⟨resolved, hresolved, -⟩ := Option.map_eq_some_iff.mp hbound
    exact ⟨resolved, by rw [resolveDefaultValue, hresolved]⟩
  · exact hvalue.elim
  · exact hvalue.elim
  · exact hvalue.elim
  · rename_i hone hname hunary hbinary
    cases value with
    | templateNameSyntax span parts => exact (hname _ _ rfl).elim
    | templateUnarySyntax span operator operand => exact (hunary _ _ _ rfl).elim
    | templateBinarySyntax span operator left right => exact (hbinary _ _ _ _ rfl).elim
    | _ => exact ⟨_, rfl⟩

theorem valueNames_ne_templateName (h : name ∈ valueNames value) : name ≠ .templateName name.identifier := by
  induction value with
  | templateNameSyntax span parts =>
      unfold valueNames at h
      split at h <;> simp_all [DefaultName.identifier]
  | templateUnarySyntax span operator operand ih => exact ih h
  | templateBinarySyntax span operator left right ihLeft ihRight =>
      rcases List.mem_append.mp h with h | h
      · exact ihLeft h
      · exact ihRight h
  | _ => cases h

/-- If a parameter has the name, there is an argument for it, except for the name of a template. -/
abbrev Replaceable (declaration : TemplateDeclarationDescriptor) (bindings : PartialBindings) (name : DefaultName) :
    Prop :=
  ∀ parameter, findParameter name.identifier declaration = some parameter →
    name = .templateName name.identifier ∨ ∃ argument, lookupBound bindings name = some argument

mutual

theorem resolveDefaultType_of_evaluable {bindings : PartialBindings} : ∀ (type : TypeSyntax),
    EvaluableType declaration type →
    (∀ name ∈ typeNames type, Replaceable declaration bindings name) →
    ∃ resolved, resolveDefaultType bindings type = some resolved
  | .autoType, h, _ => h.elim
  | .explicitType identifier, _, _ => by
      cases hbound : lookupBoundType identifier bindings <;> simp [resolveDefaultType, hbound]
  | .qualifiedTypeSyntax name arguments, h, hnames => by
      have harguments : ∀ name ∈ argumentsNames arguments, Replaceable declaration bindings name := by
        intro single hsingle
        apply hnames
        unfold typeNames
        split <;> simp_all
      obtain ⟨resolved, hresolved⟩ := resolveDefaultArguments_of_evaluable arguments h harguments
      exact ⟨_, by rw [resolveDefaultType, hresolved]; rfl⟩
  | .builtinArrayTypeSyntax element, h, hnames => by
      obtain ⟨resolved, hresolved⟩ := resolveDefaultType_of_evaluable element h (by simpa [typeNames] using hnames)
      exact ⟨_, by rw [resolveDefaultType, hresolved]; rfl⟩
  | .arrayTypeSyntax element, h, hnames => by
      obtain ⟨resolved, hresolved⟩ := resolveDefaultType_of_evaluable element h (by simpa [typeNames] using hnames)
      exact ⟨_, by rw [resolveDefaultType, hresolved]; rfl⟩
  | .fixedArrayTypeSyntax element size, h, hnames => by
      simp only [typeNames, List.mem_append] at hnames
      obtain ⟨resolved, hresolved⟩ :=
        resolveDefaultType_of_evaluable element h.1 fun name hname => hnames name (.inl hname)
      obtain ⟨value, hvalue⟩ := resolveDefaultValue_of_evaluable h.2 fun name hname parameter hfind =>
        (hnames name (.inr hname) parameter hfind).resolve_left (valueNames_ne_templateName hname)
      exact ⟨_, by rw [resolveDefaultType, hresolved, hvalue]; rfl⟩
  | .dictionaryTypeSyntax key value, h, hnames => by
      simp only [typeNames, List.mem_append] at hnames
      obtain ⟨resolvedKey, hkey⟩ :=
        resolveDefaultType_of_evaluable key h.1 fun name hname => hnames name (.inl hname)
      obtain ⟨resolvedValue, hvalue⟩ :=
        resolveDefaultType_of_evaluable value h.2 fun name hname => hnames name (.inr hname)
      exact ⟨_, by rw [resolveDefaultType, hkey, hvalue]; rfl⟩
  | .callableTypeSyntax parameters result, h, hnames => by
      simp only [typeNames, List.mem_append] at hnames
      obtain ⟨resolvedParameters, hparameters⟩ :=
        resolveDefaultTypes_of_evaluable parameters h.1 fun name hname => hnames name (.inl hname)
      obtain ⟨resolvedResult, hresult⟩ :=
        resolveDefaultType_of_evaluable result h.2 fun name hname => hnames name (.inr hname)
      exact ⟨_, by rw [resolveDefaultType, hparameters, hresult]; rfl⟩

theorem resolveDefaultArgument_of_evaluable {bindings : PartialBindings} : ∀ (argument : TemplateArgumentSyntax),
    EvaluableArgument declaration argument →
    (∀ name ∈ argumentNames argument, Replaceable declaration bindings name) →
    ∃ resolved, resolveDefaultArgument bindings argument = some resolved
  | .templateTypeSyntax type, h, hnames => by
      obtain ⟨resolved, hresolved⟩ := resolveDefaultType_of_evaluable type h hnames
      exact ⟨_, by rw [resolveDefaultArgument, hresolved]; rfl⟩
  | .templateValueArgumentSyntax value, h, hnames => by
      obtain ⟨resolved, hresolved⟩ := resolveDefaultValue_of_evaluable h fun name hname parameter hfind =>
        (hnames name hname parameter hfind).resolve_left (valueNames_ne_templateName hname)
      exact ⟨_, by rw [resolveDefaultArgument, hresolved]; rfl⟩

theorem resolveDefaultTypes_of_evaluable {bindings : PartialBindings} : ∀ (types : List TypeSyntax),
    EvaluableTypes declaration types →
    (∀ name ∈ typesNames types, Replaceable declaration bindings name) →
    ∃ resolved, resolveDefaultTypes bindings types = some resolved
  | [], _, _ => ⟨[], rfl⟩
  | type :: types, h, hnames => by
      simp only [typesNames, List.mem_append] at hnames
      obtain ⟨first, hfirst⟩ := resolveDefaultType_of_evaluable type h.1 fun name hname => hnames name (.inl hname)
      obtain ⟨rest, hrest⟩ := resolveDefaultTypes_of_evaluable types h.2 fun name hname => hnames name (.inr hname)
      exact ⟨_, by rw [resolveDefaultTypes, hfirst, hrest]; rfl⟩

theorem resolveDefaultArguments_of_evaluable {bindings : PartialBindings} :
    ∀ (arguments : List TemplateArgumentSyntax), EvaluableArguments declaration arguments →
    (∀ name ∈ argumentsNames arguments, Replaceable declaration bindings name) →
    ∃ resolved, resolveDefaultArguments bindings arguments = some resolved
  | [], _, _ => ⟨[], rfl⟩
  | argument :: arguments, h, hnames => by
      simp only [argumentsNames, List.mem_append] at hnames
      obtain ⟨first, hfirst⟩ :=
        resolveDefaultArgument_of_evaluable argument h.1 fun name hname => hnames name (.inl hname)
      obtain ⟨rest, hrest⟩ :=
        resolveDefaultArguments_of_evaluable arguments h.2 fun name hname => hnames name (.inr hname)
      exact ⟨_, by rw [resolveDefaultArguments, hfirst, hrest]; rfl⟩

end

theorem resolveDefault_of_evaluable (h : Evaluable declaration syntaxDefault)
    (hnames : ∀ name ∈ defaultNames syntaxDefault, ∀ parameter,
      findParameter name.identifier declaration = some parameter →
        ∃ argument, lookupBound bindings name = some argument) :
    ∃ resolved, resolveDefault bindings syntaxDefault = some resolved := by
  cases syntaxDefault with
  | templateTypeDefault type =>
      exact resolveDefaultArgument_of_evaluable (.templateTypeSyntax type) h
        fun name hname parameter hfind => .inr (hnames name hname parameter hfind)
  | templateValueDefault value =>
      exact resolveDefaultArgument_of_evaluable (.templateValueArgumentSyntax value) h
        fun name hname parameter hfind => .inr (hnames name hname parameter hfind)

/-- A default that is no name of a parameter is resolved to an argument of the category of its own parameter. -/
theorem Matches.accepts (h : Matches declaration category syntaxDefault)
    (hnames : ∀ name, directName syntaxDefault = some name → lookupBound bindings name = none)
    (hresolved : resolveDefault bindings syntaxDefault = some argument) :
    acceptsCategory category argument = true := by
  unfold Matches at h
  split at h
  · obtain ⟨type, -, rfl⟩ := Option.map_eq_some_iff.mp hresolved
    rfl
  · obtain ⟨value, -, rfl⟩ := Option.map_eq_some_iff.mp hresolved
    rfl
  · rename_i identifier
    have hnone : lookupBoundType identifier bindings = none := by simpa [lookupBound] using hnames _ rfl
    obtain rfl : _ = argument := by simpa [resolveDefault, resolveDefaultType, hnone] using hresolved
    rfl
  · obtain rfl : _ = argument := by
      simpa [resolveDefault, resolveDefaultType, resolveDefaultArguments] using hresolved
    rfl
  · exact h.elim

theorem directName_type {type : TypeSyntax}
    (h : directName (.templateTypeDefault type) = some name) : ∃ identifier, name = .typeName identifier := by
  cases type <;> cases h
  exact ⟨_, rfl⟩

theorem directName_value
    (h : directName (.templateValueDefault value) = some name) : ∃ identifier, name = .valueName identifier := by
  unfold directName at h
  split at h
  · rename_i heq
    cases heq
  · exact ⟨_, (Option.some.inj h).symm⟩
  · cases h

/-- The argument of the parameter that a default names fits the parameter with that default. -/
theorem Matches.accepts_named (h : Matches declaration category syntaxDefault)
    (hname : directName syntaxDefault = some name)
    (hfind : findParameter name.identifier declaration = some parameter) (husable : Usable name parameter)
    (haccepts : acceptsCategory parameter.templateDescriptorCategory argument = true) :
    acceptsCategory category argument = true := by
  have htakes := husable.takes haccepts
  unfold Matches at h
  split at h
  · obtain ⟨identifier, rfl⟩ := directName_type hname
    cases argument with
    | typeTemplateArgument type => rfl
    | valueTemplateArgument value => exact htakes.elim
  · obtain ⟨identifier, rfl⟩ := directName_value hname
    cases argument with
    | typeTemplateArgument type => exact htakes.elim
    | valueTemplateArgument value => rfl
  · obtain rfl : DefaultName.typeName _ = name := Option.some.inj hname
    obtain ⟨shapes, hshapes⟩ := h parameter hfind
    rw [hshapes] at haccepts
    cases argument with
    | typeTemplateArgument type =>
        cases type with
        | namedType parts arguments => cases arguments <;> simp_all [acceptsCategory]
        | _ => simp [acceptsCategory] at haccepts
    | valueTemplateArgument value => exact htakes.elim
  · simp [directName] at hname
  · exact h.elim

/-- Without cycles every chain of defaults ends at an argument of the right category. -/
theorem exists_resolves (hdistinct : Distinct declaration)
    (hsubset : ∀ parameter ∈ earlier, parameter ∈ declaration.templateDeclarationParameters)
    (hspellings : (earlier.map (·.templateDescriptorName.resolvedSpelling)).Nodup)
    (hbound : List.Forall₂ Bound earlier bindings)
    (hlater : ∀ parameter ∈ declaration.templateDeclarationParameters, parameter ∉ earlier →
      parameter.templateDescriptorIsPack = false → ∃ syntaxDefault,
        parameter.templateDescriptorDefault = some syntaxDefault ∧
        Matches declaration parameter.templateDescriptorCategory syntaxDefault ∧
        Evaluable declaration syntaxDefault)
    {rank : Int → Nat} (hrank : ∀ parameter ∈ declaration.templateDeclarationParameters,
      ∀ syntaxDefault, parameter.templateDescriptorDefault = some syntaxDefault →
        ∀ name ∈ defaultNames syntaxDefault, ∀ named, findParameter name.identifier declaration = some named →
          rank named.templateDescriptorName.resolvedSymbol < rank parameter.templateDescriptorName.resolvedSymbol)
    (n : Nat)
    (hordered : Ordered declaration earlier syntaxDefault) (hmatches : Matches declaration category syntaxDefault)
    (hevaluable : Evaluable declaration syntaxDefault)
    (hbelow : ∀ name, directName syntaxDefault = some name → ∀ named,
      findParameter name.identifier declaration = some named → rank named.templateDescriptorName.resolvedSymbol < n)
    (hvisited : ∀ symbol ∈ visited, n ≤ rank symbol) :
    ∃ argument, Resolves declaration bindings visited syntaxDefault argument ∧
      acceptsCategory category argument = true := by
  -- An earlier parameter that a name may stand for is bound to an argument that fits the name.
  have hearlier : ∀ name parameter, findParameter name.identifier declaration = some parameter →
      parameter ∈ earlier → Usable name parameter → ∃ argument, lookupBound bindings name = some argument ∧
        acceptsCategory parameter.templateDescriptorCategory argument = true := by
    intro name parameter hfind hmem husable
    obtain ⟨values, -, ⟨-, hsingle⟩, hlookup⟩ := bound_lookup hbound hspellings hmem
    obtain ⟨bound, rfl, haccepts⟩ := hsingle husable.1
    rw [(findParameter_mem hfind).2] at hlookup
    exact ⟨bound.argument, lookupBound_eq_some.mpr ⟨bound, hlookup, rfl, husable.takes haccepts⟩, haccepts⟩
  have hof : OfParameters declaration bindings := bound_ofParameters hbound hsubset
  induction n using Nat.strong_induction_on generalizing syntaxDefault category visited with
  | _ n ih =>
      obtain ⟨hdirect, hnested⟩ := hordered _ .refl
      cases hname : directName syntaxDefault with
      | none =>
          rw [nestedNames_nested hname] at hnested
          obtain ⟨argument, hresolved⟩ := resolveDefault_of_evaluable hevaluable fun name hmem parameter hfind => by
            obtain ⟨hparameter, husable⟩ := hnested name hmem parameter hfind
            obtain ⟨argument, hargument, -⟩ := hearlier name parameter hfind hparameter husable
            exact ⟨argument, hargument⟩
          exact ⟨argument, .nested hname hresolved, hmatches.accepts (by simp [hname]) hresolved⟩
      | some name =>
          cases hfind : findParameter name.identifier declaration with
          | none =>
              have hnone : lookupBound bindings name = none := by
                cases hargument : lookupBound bindings name with
                | none => rfl
                | some argument =>
                    obtain ⟨bound, hlookup, -⟩ := lookupBound_eq_some.mp hargument
                    simp [hof.lookup_eq_none hfind] at hlookup
              obtain ⟨argument, hresolved⟩ : ∃ argument, resolveDefault bindings syntaxDefault = some argument :=
                resolveDefault_of_evaluable hevaluable fun other hother parameter hparameter => by
                  rw [defaultNames_direct hname, List.mem_singleton] at hother
                  simp [hother, hfind] at hparameter
              exact ⟨argument, .other hname hnone hfind hresolved,
                hmatches.accepts (fun other hother => by simp_all) hresolved⟩
          | some parameter =>
              have husable := hdirect name hname parameter hfind
              by_cases hmem : parameter ∈ earlier
              · obtain ⟨argument, hargument, haccepts⟩ := hearlier name parameter hfind hmem husable
                exact ⟨argument, .bound hname hargument, hmatches.accepts_named hname hfind husable haccepts⟩
              · have hin := (findParameter_mem hfind).1
                obtain ⟨nested, hdefault, hfits, hwritten⟩ := hlater parameter hin hmem husable.1
                have hlt := hbelow name hname parameter hfind
                have hnone : lookupBound bindings name = none := by
                  cases hargument : lookupBound bindings name with
                  | none => rfl
                  | some argument =>
                      obtain ⟨bound, hlookup, -⟩ := lookupBound_eq_some.mp hargument
                      rw [bound_lookup_eq_none hbound] at hlookup
                      · cases hlookup
                      · intro other hother heq
                        have hsame := heq.trans (findParameter_mem hfind).2.symm
                        exact hmem (hdistinct.eq_of_spelling (hsubset other hother) hin hsame ▸ hother)
                have hrefers : Refers declaration syntaxDefault nested := ⟨name, parameter, hname, hfind, hdefault⟩
                obtain ⟨argument, hresolves, haccepts⟩ : ∃ argument, Resolves declaration bindings
                    (parameter.templateDescriptorName.resolvedSymbol :: visited) nested argument ∧
                    acceptsCategory parameter.templateDescriptorCategory argument = true :=
                  ih _ hlt (fun reached hreached => hordered reached (.head hrefers hreached)) hfits hwritten
                    (fun other hother named hnamed =>
                      hrank parameter hin nested hdefault other (by simp [defaultNames_direct hother]) named hnamed)
                    (List.forall_mem_cons.mpr
                      ⟨le_refl _, fun symbol hsymbol => hlt.le.trans (hvisited symbol hsymbol)⟩)
                exact ⟨argument,
                  .next hname hnone hfind (fun hmem => absurd (hvisited _ hmem) (not_le.mpr hlt)) hdefault hresolves,
                  hmatches.accepts_named hname hfind husable haccepts⟩

/-- The default of a parameter that is dealt no argument can be resolved where it stands. -/
def Resolvable (declaration : TemplateDeclarationDescriptor) (earlier : List TemplateParameterDescriptor)
    (parameter : TemplateParameterDescriptor) : Prop :=
  ∀ syntaxDefault, parameter.templateDescriptorDefault = some syntaxDefault →
    Ordered declaration earlier syntaxDefault ∧ Evaluable declaration syntaxDefault ∧
      Matches declaration parameter.templateDescriptorCategory syntaxDefault

/-- Every parameter that is dealt no argument has a default that can be resolved. -/
def DefaultsResolvable (declaration : TemplateDeclarationDescriptor) (earlier : List TemplateParameterDescriptor)
    (parameters : List TemplateParameterDescriptor) (supplied : List TemplateArgument) : Prop :=
  ∀ middle parameter later, parameters = middle ++ parameter :: later →
    (parameter, []) ∈ deal parameters supplied → parameter.templateDescriptorIsPack = false →
    Resolvable declaration (earlier ++ middle) parameter

theorem DefaultsResolvable.tail {first : TemplateParameterDescriptor}
    (h : DefaultsResolvable declaration earlier (first :: parameters) supplied) {count : Nat}
    (hcount : (if first.templateDescriptorIsPack then supplied.length - minimumRequired parameters else 1) = count) :
    DefaultsResolvable declaration (earlier ++ [first]) parameters (supplied.drop count) := by
  intro middle parameter later hsplit hmem hsingle
  rw [List.append_assoc, List.singleton_append]
  refine h (first :: middle) parameter later (by rw [hsplit, List.cons_append]) ?_ hsingle
  rw [deal, hcount]
  exact List.mem_cons_of_mem _ hmem

theorem mem_deal_nil (h : parameter ∈ parameters) : (parameter, []) ∈ deal parameters [] := by
  induction parameters with
  | nil => cases h
  | cons first parameters ih =>
      rw [deal, List.take_nil, List.drop_nil]
      rcases List.mem_cons.mp h with rfl | h
      · exact List.mem_cons_self
      · exact List.mem_cons_of_mem _ (ih h)

theorem minimumRequired_le (parameters : List TemplateParameterDescriptor) :
    minimumRequired parameters ≤ parameters.length :=
  List.length_filter_le ..

/-- When the arguments fit the parameters they are dealt to, every parameter gets bound. -/
theorem exists_binds (hdistinct : Distinct declaration) (hacyclic : Acyclic declaration)
    (hsplit : declaration.templateDeclarationParameters = earlier ++ parameters)
    (hbound : List.Forall₂ Bound earlier bindings)
    (hlimit : parameters.any (·.templateDescriptorIsPack) = false → supplied.length ≤ parameters.length)
    (haccepts : ∀ entry ∈ deal parameters supplied, ∀ argument ∈ entry.2,
      acceptsCategory entry.1.templateDescriptorCategory argument = true)
    (hreached : Reached parameters supplied)
    (hdefaults : DefaultsResolvable declaration earlier parameters supplied) :
    ∃ final, Binds declaration bindings parameters supplied final := by
  induction parameters generalizing earlier bindings supplied with
  | nil =>
      obtain rfl : supplied = [] := by simpa using hlimit rfl
      exact ⟨bindings, .done bindings⟩
  | cons parameter remaining ih =>
      have hnext : declaration.templateDeclarationParameters = (earlier ++ [parameter]) ++ remaining := by
        rw [hsplit, List.append_assoc, List.singleton_append]
      cases hpack : parameter.templateDescriptorIsPack with
      | true =>
          have htail := hdefaults.tail (if_pos hpack)
          simp only [deal, hpack, if_true, List.forall_mem_cons] at haccepts
          simp only [Reached, deal, hpack, if_true, List.forall_mem_cons] at hreached
          have hlength := minimumRequired_le remaining
          have hall : List.Forall₂ Bound (earlier ++ [parameter]) (bindings ++ [(parameter.templateDescriptorName,
              (supplied.take (supplied.length - minimumRequired remaining)).map .explicitTemplateArgument)]) :=
            List.rel_append hbound (.cons ⟨rfl, by simp [hpack]⟩ .nil)
          obtain ⟨final, hfinal⟩ := ih hnext hall (fun _ => by rw [List.length_drop]; omega) haccepts.2 hreached.2
            htail
          exact ⟨final, .pack hpack haccepts.1 hfinal⟩
      | false =>
          have htail := hdefaults.tail (if_neg (by simp [hpack]))
          simp only [List.any_cons, hpack, Bool.false_or, List.length_cons] at hlimit
          cases supplied with
          | cons argument supplied =>
              simp only [deal, hpack, Bool.false_eq_true, if_false, List.take_succ_cons, List.take_zero,
                List.drop_succ_cons, List.drop_zero, List.forall_mem_cons] at haccepts
              simp only [Reached, deal, hpack, Bool.false_eq_true, if_false, List.drop_succ_cons, List.drop_zero,
                List.forall_mem_cons] at hreached
              have hall : List.Forall₂ Bound (earlier ++ [parameter])
                  (bindings ++ [(parameter.templateDescriptorName, [.explicitTemplateArgument argument])]) :=
                List.rel_append hbound
                  (.cons ⟨rfl, fun _ => ⟨.explicitTemplateArgument argument, rfl, haccepts.1.1⟩⟩ .nil)
              obtain ⟨final, hfinal⟩ := ih hnext hall (fun hnone => by have := hlimit hnone; simp at this; omega)
                haccepts.2 hreached.2 htail
              exact ⟨final, .argument hpack haccepts.1.1 hfinal⟩
          | nil =>
              -- No argument is left, so this parameter and all later ones are bound to their defaults.
              have hdefault : ∀ other ∈ parameter :: remaining, other.templateDescriptorIsPack = false →
                  ∃ syntaxDefault, other.templateDescriptorDefault = some syntaxDefault := by
                intro other hother hsingle
                have hnot := mt (hreached (other, []) (mem_deal_nil hother)) (by simp)
                exact Option.ne_none_iff_exists'.mp
                  (by simpa [TemplateParameterDescriptor.required, hsingle] using hnot)
              have hresolvable : ∀ other ∈ parameter :: remaining, other.templateDescriptorIsPack = false →
                  ∃ before, Resolvable declaration before other := by
                intro other hother hsingle
                obtain ⟨middle, later, hparts⟩ := List.append_of_mem hother
                exact ⟨_, hdefaults middle other later hparts (mem_deal_nil hother) hsingle⟩
              obtain ⟨syntaxDefault, hown⟩ := hdefault parameter List.mem_cons_self hpack
              have hfirst := hdefaults [] parameter remaining rfl (mem_deal_nil List.mem_cons_self) hpack
              rw [List.append_nil] at hfirst
              obtain ⟨hordered, hevaluable, hmatches⟩ := hfirst syntaxDefault hown
              obtain ⟨rank, hrank⟩ := hacyclic
              have hspellings : (earlier.map (·.templateDescriptorName.resolvedSpelling)).Nodup := by
                have hnodup := hdistinct.spellings
                rw [hsplit, List.map_append] at hnodup
                exact hnodup.of_append_left
              have hin : parameter ∈ declaration.templateDeclarationParameters := by simp [hsplit]
              obtain ⟨argument, hresolves, hfits⟩ : ∃ argument, Resolves declaration bindings
                  [parameter.templateDescriptorName.resolvedSymbol] syntaxDefault argument ∧
                  acceptsCategory parameter.templateDescriptorCategory argument = true :=
                exists_resolves hdistinct (fun other hother => by simp [hsplit, hother]) hspellings hbound
                (fun other hother hlater hsingle => by
                  rw [hsplit, List.mem_append] at hother
                  have hother := hother.resolve_left hlater
                  obtain ⟨given, hgiven⟩ := hdefault other hother hsingle
                  obtain ⟨before, hbefore⟩ := hresolvable other hother hsingle
                  obtain ⟨-, hwritten, hfits⟩ := hbefore given hgiven
                  exact ⟨given, hgiven, hfits, hwritten⟩)
                hrank (rank parameter.templateDescriptorName.resolvedSymbol) hordered hmatches hevaluable
                (fun name hname named hfind =>
                  hrank parameter hin syntaxDefault hown name (by simp [defaultNames_direct hname]) named hfind)
                (by simp)
              simp only [deal, List.drop_nil, List.forall_mem_cons] at haccepts
              simp only [Reached, deal, List.drop_nil, List.forall_mem_cons] at hreached
              have hall : List.Forall₂ Bound (earlier ++ [parameter])
                  (bindings ++ [(parameter.templateDescriptorName, [.defaultTemplateArgument argument])]) :=
                List.rel_append hbound (.cons ⟨rfl, fun _ => ⟨.defaultTemplateArgument argument, rfl, hfits⟩⟩ .nil)
              obtain ⟨final, hfinal⟩ := ih hnext hall (by simp) haccepts.2 hreached.2 htail
              exact ⟨final, .filled hpack hown (resolveDefaultFor_eq_some.mpr hresolves) hfits hfinal⟩

/-- No parameter that needs an argument comes after one with a default. -/
def RequiredFirst : List TemplateParameterDescriptor → Prop
  | [] => True
  | parameter :: remaining =>
      ((parameter.templateDescriptorIsPack = false ∧ parameter.templateDescriptorDefault ≠ none) →
        ∀ other ∈ remaining, other.required = false) ∧ RequiredFirst remaining

/-- The parameters of a deal. -/
theorem deal_fst (parameters : List TemplateParameterDescriptor) (supplied : List TemplateArgument) :
    (deal parameters supplied).map (·.1) = parameters := by
  induction parameters generalizing supplied with
  | nil => rfl
  | cons parameter remaining ih => simp [deal, ih]

/-- Where the required parameters come first, enough arguments reach all of them. -/
theorem RequiredFirst.reached
    (h : RequiredFirst parameters) (hminimum : minimumRequired parameters ≤ supplied.length) :
    Reached parameters supplied := by
  induction parameters generalizing supplied with
  | nil => simp [Reached, deal]
  | cons parameter remaining ih =>
      obtain ⟨hfirst, hrest⟩ := h
      cases hpack : parameter.templateDescriptorIsPack with
      | true =>
          have hnot : parameter.required = false := by simp [TemplateParameterDescriptor.required, hpack]
          simp only [minimumRequired, List.filter_cons, hnot, Bool.false_eq_true, if_false] at hminimum
          simp only [Reached, deal, hpack, if_true, List.forall_mem_cons, hnot]
          refine ⟨by simp, ih hrest ?_⟩
          rw [List.length_drop]
          unfold minimumRequired
          omega
      | false =>
          simp only [Reached, deal, hpack, Bool.false_eq_true, if_false, List.forall_mem_cons]
          by_cases hneeds : parameter.required = true
          · simp only [minimumRequired, List.filter_cons, hneeds, if_true, List.length_cons] at hminimum
            refine ⟨fun _ hnil => ?_, ih hrest ?_⟩
            · have hlength := congrArg List.length hnil
              rw [List.length_take, List.length_nil] at hlength
              omega
            · rw [List.length_drop]
              unfold minimumRequired
              omega
          · have hdefault : parameter.templateDescriptorDefault ≠ none := by
              simpa [TemplateParameterDescriptor.required, hpack] using hneeds
            have hothers := hfirst ⟨hpack, hdefault⟩
            refine ⟨fun hrequired => absurd hrequired hneeds, fun entry hentry hrequired => ?_⟩
            have hmem : entry.1 ∈ remaining := by
              have := List.mem_map_of_mem (f := Prod.fst) hentry
              rwa [deal_fst] at this
            rw [hothers entry.1 hmem] at hrequired
            cases hrequired

/-! ## Bindings -/

theorem bindKnownDeclaration_eq_ok :
    bindKnownDeclaration declaration supplied = .ok binding ↔
      binding.templateBindingDeclaration = declaration ∧
        Binds declaration [] declaration.templateDeclarationParameters supplied binding.templateBindingArguments := by
  obtain ⟨described, bindings⟩ := binding
  rw [← bindParameters_eq_iff]
  unfold bindKnownDeclaration
  split
  · rename_i found hrun
    simp only [Except.ok.injEq, TemplateBinding.mk.injEq, hrun, Prod.mk.injEq, and_true]
    exact and_congr_left' eq_comm
  · rename_i found leftovers hleftovers hrun
    simp only [reduceCtorEq, false_iff, hrun, Prod.mk.injEq, and_true, not_and]
    intro _ _ hnil
    exact hleftovers hnil
  · rename_i found leftovers problems hproblems hrun
    simp only [reduceCtorEq, false_iff, hrun, Prod.mk.injEq, not_and]
    intro _ _ _ hnil
    exact hproblems hnil

/-- Supplied arguments within the arity of the template that they are for. -/
structure WithinArity (declaration : TemplateDeclarationDescriptor) (supplied : List TemplateArgument) : Prop where
  minimum : minimumTemplateArity declaration ≤ supplied.length
  maximum : ∀ limit, maximumTemplateArity declaration = some limit → supplied.length ≤ limit

theorem bindTemplateApplication_eq_ok {catalog : TemplateCatalog} {application : TemplateApplication} :
    bindTemplateApplication catalog application = .ok binding ↔
      lookupTemplateDeclaration application.templateApplicationTarget catalog =
          .ok binding.templateBindingDeclaration ∧
        WithinArity binding.templateBindingDeclaration application.templateApplicationArguments ∧
        Binds binding.templateBindingDeclaration []
          binding.templateBindingDeclaration.templateDeclarationParameters
          application.templateApplicationArguments binding.templateBindingArguments := by
  unfold bindTemplateApplication
  split
  · rename_i issue hlookup
    simp [hlookup]
  · rename_i found hlookup
    rw [hlookup]
    dsimp only
    constructor
    · intro h
      split_ifs at h with hfew
      split at h
      · rename_i limit hlimit
        split_ifs at h with hmany
        obtain ⟨rfl, hbinds⟩ := bindKnownDeclaration_eq_ok.mp h
        exact ⟨rfl, ⟨Nat.le_of_not_lt hfew, fun other hother => by
          obtain rfl := Option.some.inj (hlimit.symm.trans hother)
          exact Nat.le_of_not_lt hmany⟩, hbinds⟩
      · rename_i hnone
        obtain ⟨rfl, hbinds⟩ := bindKnownDeclaration_eq_ok.mp h
        exact ⟨rfl, ⟨Nat.le_of_not_lt hfew, fun other hother => by simp [hnone] at hother⟩, hbinds⟩
    · rintro ⟨hfound, harity, hbinds⟩
      obtain rfl : found = binding.templateBindingDeclaration := Except.ok.inj hfound
      rw [if_neg (Nat.not_lt.mpr harity.minimum)]
      split
      · rename_i limit hlimit
        rw [if_neg (Nat.not_lt.mpr (harity.maximum limit hlimit))]
        exact bindKnownDeclaration_eq_ok.mpr ⟨rfl, hbinds⟩
      · exact bindKnownDeclaration_eq_ok.mpr ⟨rfl, hbinds⟩

theorem WithinArity.no_more (h : WithinArity declaration supplied) :
    declaration.templateDeclarationParameters.any (·.templateDescriptorIsPack) = false →
      supplied.length ≤ declaration.templateDeclarationParameters.length := by
  intro hnone
  exact h.maximum _ (by rw [maximumTemplateArity, if_neg (by simp [hnone])])

/-- A binding holds the supplied arguments in the order of the parameters, one accepted argument for each
parameter that is no pack, and for a defaulted parameter its default with the parameters in it replaced, where
the names nested in the default are those of earlier parameters. Arguments within the arity that fit the
parameters they are dealt to give a binding, when they reach the required parameters and the other defaults are
free of cycles and of arithmetic. -/
theorem bindTemplateApplication_binds (catalog : TemplateCatalog) (application : TemplateApplication) :
    (∀ binding, bindTemplateApplication catalog application = .ok binding →
      lookupTemplateDeclaration application.templateApplicationTarget catalog =
        .ok binding.templateBindingDeclaration ∧
      explicitArguments binding.templateBindingArguments = application.templateApplicationArguments ∧
      List.Forall₂ Bound binding.templateBindingDeclaration.templateDeclarationParameters
        binding.templateBindingArguments ∧
      (Distinct binding.templateBindingDeclaration → ∀ earlier parameter later argument,
        binding.templateBindingDeclaration.templateDeclarationParameters = earlier ++ parameter :: later →
        (parameter.templateDescriptorName, [.defaultTemplateArgument argument]) ∈ binding.templateBindingArguments →
        ∃ syntaxDefault, parameter.templateDescriptorDefault = some syntaxDefault ∧
          (Ordered binding.templateBindingDeclaration earlier syntaxDefault →
            ∃ opened, openDefault binding.templateBindingDeclaration syntaxDefault = some opened ∧
              substituteTemplateArgument binding opened = .ok argument))) ∧
    (∀ declaration,
      lookupTemplateDeclaration application.templateApplicationTarget catalog = .ok declaration →
      Distinct declaration → Acyclic declaration →
      WithinArity declaration application.templateApplicationArguments →
      (∀ entry ∈ deal declaration.templateDeclarationParameters application.templateApplicationArguments,
        ∀ argument ∈ entry.2, acceptsCategory entry.1.templateDescriptorCategory argument = true) →
      (Reached declaration.templateDeclarationParameters application.templateApplicationArguments ∨
        RequiredFirst declaration.templateDeclarationParameters) →
      DefaultsResolvable declaration [] declaration.templateDeclarationParameters
        application.templateApplicationArguments →
      ∃ binding, bindTemplateApplication catalog application = .ok binding) := by
  constructor
  · intro binding h
    obtain ⟨hlookup, -, hbinds⟩ := bindTemplateApplication_eq_ok.mp h
    obtain ⟨bound, hbound, hall⟩ := hbinds.bound
    rw [List.nil_append] at hbound
    refine ⟨hlookup, by simpa [explicitArguments] using hbinds.explicit, hbound ▸ hall, ?_⟩
    intro hdistinct earlier parameter later argument hsplit hmem
    exact hbinds.default_replaced hdistinct hsplit hmem
  · intro declaration hlookup hdistinct hacyclic harity haccepts hreached hdefaults
    have hall : Reached declaration.templateDeclarationParameters application.templateApplicationArguments :=
      hreached.elim id fun hfirst => hfirst.reached harity.minimum
    obtain ⟨final, hfinal⟩ := exists_binds hdistinct hacyclic rfl .nil harity.no_more haccepts hall hdefaults
    exact ⟨⟨declaration, final⟩, bindTemplateApplication_eq_ok.mpr ⟨hlookup, harity, hfinal⟩⟩

/-! ## Templates with defaults -/

def typeParameter (name : ResolvedName) (syntaxDefault : Option TemplateDefault) : TemplateParameterDescriptor where
  templateDescriptorName := name
  templateDescriptorCategory := .typeParameterCategory
  templateDescriptorIsPack := false
  templateDescriptorDefault := syntaxDefault
  templateDescriptorAnnotation := .typeVariable name

def intParameter (name : ResolvedName) (syntaxDefault : Option TemplateDefault) : TemplateParameterDescriptor where
  templateDescriptorName := name
  templateDescriptorCategory := .valueParameterCategory (.namedType ["int"] [])
  templateDescriptorIsPack := false
  templateDescriptorDefault := syntaxDefault
  templateDescriptorAnnotation := .namedType ["int"] []

def templateOf (parameters : List TemplateParameterDescriptor) : TemplateDeclarationDescriptor where
  templateDeclarationName := ["Box"]
  templateDeclarationSymbol := 9
  templateDeclarationParameters := parameters
  templateDeclarationMembers := []

def onePlusTwo : TemplateDefault :=
  .templateValueDefault (.templateBinarySyntax syntheticSpan .add (.templateIntegerSyntax syntheticSpan 1)
    (.templateIntegerSyntax syntheticSpan 2))

def listOfN : TemplateDefault :=
  .templateTypeDefault (.qualifiedTypeSyntax ["List"] [.templateTypeSyntax (.explicitType "N")])

/-- `template<int N = 1 + 2>` is within its arity without arguments, and is not bound; neither is
`template<typename T = int, typename U>` with one argument. With `template<int N, typename T = List<N>>` the name
`N` in the default is read as a type of that name. -/
theorem arithmetic_default_is_not_bound :
    (WithinArity (templateOf [intParameter ⟨1, "N"⟩ (some onePlusTwo)]) [] ∧
      Acyclic (templateOf [intParameter ⟨1, "N"⟩ (some onePlusTwo)]) ∧
      bindTemplateApplication ⟨[templateOf [intParameter ⟨1, "N"⟩ (some onePlusTwo)]]⟩ ⟨["Box"], []⟩ =
        .error [.unresolvedTemplateDefault ["Box"] ⟨1, "N"⟩ onePlusTwo]) ∧
    (WithinArity (templateOf [typeParameter ⟨1, "T"⟩ (some (.templateTypeDefault (.explicitType "int"))),
        typeParameter ⟨2, "U"⟩ none]) [.typeTemplateArgument (.namedType ["char"] [])] ∧
      Acyclic (templateOf [typeParameter ⟨1, "T"⟩ (some (.templateTypeDefault (.explicitType "int"))),
        typeParameter ⟨2, "U"⟩ none]) ∧
      bindTemplateApplication ⟨[templateOf [typeParameter ⟨1, "T"⟩
          (some (.templateTypeDefault (.explicitType "int"))), typeParameter ⟨2, "U"⟩ none]]⟩
          ⟨["Box"], [.typeTemplateArgument (.namedType ["char"] [])]⟩ =
        .error [.tooFewTemplateArguments ["Box"] 1 1]) ∧
    bindTemplateApplication ⟨[templateOf [intParameter ⟨1, "N"⟩ none, typeParameter ⟨2, "T"⟩ (some listOfN)]]⟩
        ⟨["Box"], [.valueTemplateArgument (.integerTemplateValue 4)]⟩ =
      .ok ⟨templateOf [intParameter ⟨1, "N"⟩ none, typeParameter ⟨2, "T"⟩ (some listOfN)],
        [(⟨1, "N"⟩, [.explicitTemplateArgument (.valueTemplateArgument (.integerTemplateValue 4))]),
          (⟨2, "T"⟩, [.defaultTemplateArgument (.typeTemplateArgument
            (.namedType ["List"] [.typeTemplateArgument (.namedType ["N"] [])]))])]⟩ := by
  refine ⟨⟨⟨by decide, by decide⟩, ⟨fun _ => 0, ?_⟩, ?_⟩, ⟨⟨by decide, by decide⟩, ⟨fun _ => 0, ?_⟩, ?_⟩, ?_⟩
  · simp [templateOf, intParameter, onePlusTwo, defaultNames, valueNames]
  · simp [bindTemplateApplication, lookupTemplateDeclaration, minimumTemplateArity, minimumRequired,
      maximumTemplateArity, bindKnownDeclaration, bindParameters, templateOf, intParameter, onePlusTwo,
      TemplateParameterDescriptor.required, resolveDefaultFor, resolveDefault, resolveDefaultValue]
  · simp [templateOf, typeParameter, defaultNames, typeNames, findParameter, DefaultName.identifier]
  · simp [bindTemplateApplication, lookupTemplateDeclaration, minimumTemplateArity, minimumRequired,
      maximumTemplateArity, bindKnownDeclaration, bindParameters, templateOf, typeParameter, validateCategory,
      acceptsCategory, TemplateParameterDescriptor.required, bindingOffset]
  · simp [bindTemplateApplication, lookupTemplateDeclaration, minimumTemplateArity, minimumRequired,
      maximumTemplateArity, bindKnownDeclaration, bindParameters, templateOf, intParameter, typeParameter, listOfN,
      validateCategory, acceptsCategory, TemplateParameterDescriptor.required, resolveDefaultFor, resolveDefault,
      resolveDefaultType, resolveDefaultArguments, resolveDefaultArgument, lookupBoundType,
      lookupBySpelling]

def namedU : TemplateDefault := .templateTypeDefault (.explicitType "U")

def namedInt : TemplateDefault := .templateTypeDefault (.explicitType "int")

/-- `template<typename T = U, typename U = int>` -/
def pairTemplate : TemplateDeclarationDescriptor :=
  templateOf [typeParameter ⟨1, "T"⟩ (some namedU), typeParameter ⟨2, "U"⟩ (some namedInt)]

theorem pairTemplate_reaches {first reached : TemplateDefault} (h : Reaches pairTemplate first reached)
    (hfirst : first = namedU ∨ first = namedInt) : reached = namedU ∨ reached = namedInt := by
  induction h with
  | refl => exact hfirst
  | tail _ hstep ih =>
      obtain ⟨name, parameter, -, hfind, hdefault⟩ := hstep
      have hmem := (findParameter_mem hfind).1
      simp only [pairTemplate, templateOf, List.mem_cons, List.not_mem_nil, or_false] at hmem
      rcases hmem with rfl | rfl
      · exact .inl (Option.some.inj hdefault).symm
      · exact .inr (Option.some.inj hdefault).symm

theorem pairTemplate_ordered
    (h : syntaxDefault = namedU ∨ syntaxDefault = namedInt) : Ordered pairTemplate earlier syntaxDefault := by
  intro reached hreached
  rcases pairTemplate_reaches hreached h with rfl | rfl
  · refine ⟨fun name hname parameter hfind => ?_, by simp [nestedNames, namedU, directName]⟩
    obtain rfl : DefaultName.typeName "U" = name := by simpa [namedU, directName] using hname
    obtain rfl : typeParameter ⟨2, "U"⟩ (some namedInt) = parameter := by
      simpa [findParameter, pairTemplate, templateOf, typeParameter, DefaultName.identifier] using hfind
    exact ⟨rfl, trivial⟩
  · refine ⟨fun name hname parameter hfind => ?_, by simp [nestedNames, namedInt, directName]⟩
    obtain rfl : DefaultName.typeName "int" = name := by simpa [namedInt, directName] using hname
    simp [findParameter, pairTemplate, templateOf, typeParameter, DefaultName.identifier] at hfind

theorem bindTemplateApplication_binds_pair :
    ∃ binding, bindTemplateApplication ⟨[pairTemplate]⟩ ⟨["Box"], []⟩ = .ok binding := by
  refine (bindTemplateApplication_binds ⟨[pairTemplate]⟩ ⟨["Box"], []⟩).2 pairTemplate rfl
    ⟨by decide, by decide⟩ ⟨fun symbol => if symbol = 1 then 1 else 0, ?_⟩ ⟨by decide, by decide⟩ ?_ (.inl ?_) ?_
  · simp [pairTemplate, templateOf, typeParameter, namedU, namedInt, defaultNames, typeNames, findParameter,
      DefaultName.identifier]
  · simp [pairTemplate, templateOf, deal]
  · simp [Reached, pairTemplate, templateOf, typeParameter, deal, TemplateParameterDescriptor.required]
  · intro middle parameter later hsplit _ _ syntaxDefault hdefault
    have hmem : parameter ∈ pairTemplate.templateDeclarationParameters := by simp [hsplit]
    simp only [pairTemplate, templateOf, List.mem_cons, List.not_mem_nil, or_false] at hmem
    rcases hmem with rfl | rfl
    · obtain rfl := Option.some.inj hdefault
      exact ⟨pairTemplate_ordered (.inl rfl), trivial, trivial⟩
    · obtain rfl := Option.some.inj hdefault
      exact ⟨pairTemplate_ordered (.inr rfl), trivial, trivial⟩

end Tala.Frontend
