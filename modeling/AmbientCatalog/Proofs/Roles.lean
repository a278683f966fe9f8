import AmbientCatalog.Proofs.Requests

/-!
# The role that wins

An interface is described for a variable only once, in the role in which it is asked for first.
Where all declarations of a name record the same type, that role does not depend on which statement
asks: it is the role for the declared type of the variable, and the instance side if the interface
has no such role and is only constructed. A variable that asks for the same interface both as its
type and as the result of a construct signature asks for the type first.
-/

set_option autoImplicit false

namespace AmbientCatalog

def TypesAgree (sites : List Site) : Prop :=
  ∀ declared ∈ sites.flatMap Site.annotations, ∀ other ∈ sites.flatMap Site.annotations,
    declared.1 = other.1 → declared.2 = other.2

instance (sites : List Site) : Decidable (TypesAgree sites) :=
  inferInstanceAs (Decidable (∀ declared ∈ sites.flatMap Site.annotations,
    ∀ other ∈ sites.flatMap Site.annotations, declared.1 = other.1 → declared.2 = other.2))

theorem Index.IsOf.typeOf_eq {index : Index} {sites : List Site} (hindex : index.IsOf sites)
    (hagree : TypesAgree sites) {name typeName : String}
    (hmem : (name, typeName) ∈ sites.flatMap Site.annotations) :
    index.typeOf name = some typeName := by
  have hsome : (index.typeOf name).isSome = true := by
    rw [Index.typeOf, hindex.declared, List.lookup_isSome_iff]
    exact ⟨(name, typeName), List.mem_reverse.mpr hmem, by simp⟩
  obtain ⟨found, hfound⟩ := Option.isSome_iff_exists.mp hsome
  have hsame : found = typeName := hagree _ (hindex.annotation_of_typeOf hfound) _ hmem rfl
  rw [hfound, hsame]

theorem Site.annotation_of_typedVariable {sites : List Site} {site : Site} (hsite : site ∈ sites)
    {binding : String} {type : TypeExpr} (htyped : (binding, type) ∈ site.typedVariables) :
    (binding, type.recordedName) ∈ sites.flatMap Site.annotations :=
  List.mem_flatMap.mpr ⟨site, hsite, site.recorded_of_typedVariable htyped⟩

def SimplyTyped (sites : List Site) (binding : String) : Prop :=
  ∀ site ∈ sites, ∀ typed ∈ site.typedVariables, typed.1 = binding →
    typed.2.simpleName?.isSome = true

namespace Setting

/-- The role of an interface for a variable, going by the recorded type of the variable. -/
def settledRole (s : Setting) (interface binding : String) : Role :=
  (s.roleOf interface binding (s.index.typeOf binding)).getD .instanceSide

theorem roleOf_of_lookup (s : Setting) {name interface binding found : String}
    (h : s.index.lookup name (Name.parent binding) = some found) :
    s.roleOf interface binding (some name) = Role.classify interface binding (some found) := by
  simp [roleOf, h]

theorem roleOf_self_none (s : Setting) (binding : String) :
    s.roleOf binding binding none = some .instanceSide := by
  simp [roleOf, Role.classify]

/-- No complex type of a variable is taken for the interface with the name of the variable. -/
def Unmistaken (s : Setting) (sites : List Site) (binding : String) : Prop :=
  s.index.hasInterface binding = true → ¬SimplyTyped sites binding →
    s.roleOf binding binding (s.index.typeOf binding) = some .instanceSide

section Variable

variable {s : Setting} {binding scope : String} {type : TypeExpr}

theorem ownSteps_settle (hknown : s.index.typeOf binding = some type.recordedName)
    (hcomplex : s.index.hasInterface binding = true → type.simpleName? = none →
      s.roleOf binding binding (s.index.typeOf binding) = some .instanceSide) (interface : String) :
    Settles interface binding (s.settledRole interface binding)
      (s.ownSteps binding type.simpleName?) := by
  apply Settles.of_forall
  intro role hmem
  obtain ⟨rfl, -, hi, hrole⟩ := s.mem_ownSteps.mp hmem
  cases ht : type.simpleName? with
  | some name =>
    have hrecorded : type.recordedName = name := by simp [TypeExpr.recordedName, ht]
    rw [ht] at hrole
    rw [settledRole, hknown, hrecorded, hrole]
    rfl
  | none =>
    -- a complex type is recorded under a name of its own, which must not lead back to the variable
    rw [ht, roleOf_self_none] at hrole
    rw [settledRole, hcomplex hi ht]
    exact (Option.some.inj hrole).symm

theorem namedSteps_settle (hparent : Name.parent binding = scope)
    (hknown : s.index.typeOf binding = some type.recordedName) (interface : String) :
    Settles interface binding (s.settledRole interface binding)
      (s.namedSteps binding scope type.simpleName?) := by
  cases ht : type.simpleName? with
  | none => exact Settles.of_forall (by simp [namedSteps])
  | some name =>
    cases hl : s.index.lookup name scope with
    | none => exact Settles.of_forall (by simp [namedSteps, hl])
    | some found =>
      have hsteps : s.namedSteps binding scope (some name) =
          s.typeSteps binding found (some name) ++ s.instanceSteps binding found := by
        simp [namedSteps, hl]
      have hrole : ∀ other, s.roleOf other binding (some name) =
          Role.classify other binding (some found) := by
        intro other
        exact s.roleOf_of_lookup (hparent.symm ▸ hl)
      have hsettled : s.settledRole interface binding =
          (Role.classify interface binding (some found)).getD .instanceSide := by
        have hrecorded : type.recordedName = name := by simp [TypeExpr.recordedName, ht]
        rw [settledRole, hknown, hrecorded, hrole]
      rw [hsteps, hsettled]
      by_cases hfound : interface = found ∧ found ≠ binding
      · -- the request for the type stands before those for what it constructs
        obtain ⟨rfl, hne⟩ := hfound
        apply Settles.append_of_firstRole
        simp [typeSteps, hne, requestIn, hrole, Role.classify, Ne.symm hne, firstRole, Step.roleFor]
      · apply Settles.of_forall
        intro role hmem
        rcases List.mem_append.mp hmem with hmem | hmem
        · obtain ⟨heq, -, hne, -⟩ := s.mem_typeSteps.mp hmem
          exact absurd ⟨heq, hne⟩ hfound
        · obtain ⟨-, rfl, -, -, -, hne⟩ := s.mem_instanceSteps.mp hmem
          have hother : found ≠ interface := by
            rintro rfl
            exact hfound ⟨rfl, hne⟩
          simp [Role.classify, Ne.symm hne, hother]

theorem describedSteps_settle (hparent : Name.parent binding = scope)
    (hknown : s.index.typeOf binding = some type.recordedName)
    (hcomplex : s.index.hasInterface binding = true → type.simpleName? = none →
      s.roleOf binding binding (s.index.typeOf binding) = some .instanceSide) (interface : String) :
    Settles interface binding (s.settledRole interface binding)
      (s.describedSteps binding scope (some type)) := by
  have hinline : ∀ type, Settles interface binding (s.settledRole interface binding)
      (inlineSteps binding type) := by
    intro type
    apply Settles.of_forall
    cases type <;> simp [inlineSteps]
  have hsteps := ((ownSteps_settle hknown hcomplex interface).append
    (namedSteps_settle hparent hknown interface)).append (hinline type)
  cases type with
  | keyword word => exact Settles.of_forall (by simp [describedSteps])
  | _ => exact hsteps

end Variable

theorem variableSteps_settle {s : Setting} {sites : List Site} (hindex : s.index.IsOf sites)
    (hnames : WellNamed sites) (hagree : TypesAgree sites) {binding : String}
    (hclear : s.Unmistaken sites binding)
    {site : Site} (hsite : site ∈ sites) {decl : VariableDecl}
    (hdecl : site.decl? = some (.variableDecl decl)) {declarator : Declarator}
    (hmem : declarator ∈ decl.declarators) (interface : String) :
    Settles interface binding (s.settledRole interface binding)
      (s.variableSteps site.scope decl declarator) := by
  by_cases htyped : ∃ type, declarator.typed? site.scope = some (binding, type)
  · obtain ⟨type, htype⟩ := htyped
    have hin := Site.typedVariable_of_declarator hdecl hmem htype
    obtain ⟨name, hident, rfl⟩ := hnames.typedVariable hsite hin
    have hknown := hindex.typeOf_eq hagree (Site.annotation_of_typedVariable hsite hin)
    have hcomplex : s.index.hasInterface (Name.qualify name site.scope) = true →
        type.simpleName? = none → s.roleOf (Name.qualify name site.scope)
          (Name.qualify name site.scope) (s.index.typeOf (Name.qualify name site.scope)) =
            some .instanceSide := by
      intro hi hnone
      refine hclear hi (fun hsimple => ?_)
      have hsome := hsimple site hsite _ hin rfl
      simp [hnone] at hsome
    have hdescribed := describedSteps_settle (Name.parent_qualify hident site.scope) hknown
      hcomplex interface
    cases declarator with
    | destructured => simp [Declarator.typed?] at htype
    | ident written type? =>
      cases type? with
      | none => simp [Declarator.typed?] at htype
      | some annotated =>
        simp only [Declarator.typed?, Option.some.injEq, Prod.mk.injEq] at htype
        obtain ⟨hname, rfl⟩ := htype
        rw [variableSteps, hname]
        refine hdescribed.append (Settles.of_forall ?_)
        split_ifs <;> simp
  · apply Settles.of_forall
    intro role hrequest
    obtain ⟨type, htype, -⟩ := s.mem_variableSteps.mp hrequest
    exact absurd ⟨type, htype⟩ htyped

/-- Whatever statement asks for an interface and a variable first, it asks in the settled role,
unless the name of a complex type leads back to the interface of the variable. -/
theorem stepsAt_settle {s : Setting} {sites : List Site} (hindex : s.index.IsOf sites)
    (hnames : WellNamed sites) (hagree : TypesAgree sites) {binding : String}
    (hclear : s.Unmistaken sites binding)
    (interface : String) :
    Settles interface binding (s.settledRole interface binding) (sites.flatMap s.stepsAt) := by
  apply Settles.flatMap
  intro site hsite
  by_cases hvariable : ∃ decl, site.decl? = some (.variableDecl decl)
  · obtain ⟨decl, hdecl⟩ := hvariable
    have hsteps : s.stepsAt site = decl.declarators.flatMap (s.variableSteps site.scope decl) := by
      simp [stepsAt, hdecl]
    rw [hsteps]
    apply Settles.flatMap
    intro declarator hmem
    exact variableSteps_settle hindex hnames hagree hclear hsite hdecl hmem interface
  · have hnone : site.typedVariables = [] := by
      unfold Site.typedVariables
      split
      · next decl hdecl => exact absurd ⟨decl, hdecl⟩ hvariable
      · rfl
    apply Settles.of_forall
    intro role hrequest
    rcases s.mem_stepsAt.mp hrequest with ⟨type, htyped, -⟩ | ⟨-, -, hrole⟩
    · simp [hnone] at htyped
    · simp [settledRole, hrole]

end Setting

end AmbientCatalog
