import AmbientCatalog.Proofs.Roles

/-!
# Both sides of a global

A global with a type has up to two sides: the members of its type stand under its own name, and
those of the interface with its name stand under its prototype when that interface is not its type.
The nodes of a side can come from the variable or from the statement of an interface, whichever is
met first. Since the role is settled, both sides are complete in the end.
-/

set_option autoImplicit false

namespace AmbientCatalog

theorem Member.node_isPlaceholder {binding : String} (hb : binding ≠ "")
    (hplain : ¬Node.placeholderId.toList <+: binding.toList) (role : Role) (member : Member) :
    (member.node (role.scope binding) role.isStatic).isPlaceholder = false := by
  have hdot : '.' ∉ Node.placeholderId.toList := by decide
  have hscope : ¬Node.placeholderId.toList <+: (role.scope binding).toList := by
    cases role with
    | ownType => exact hplain
    | constructorSide => exact hplain
    | instanceSide => exact fun h => hplain (Name.startsWith_of_qualify hdot hb h)
  by_contra hholder
  simp only [Node.isPlaceholder, Bool.not_eq_false, List.isPrefixOf_iff_prefix,
    Member.node_id (role.scope_ne_empty hb)] at hholder
  exact hscope (Name.startsWith_of_qualify hdot (role.scope_ne_empty hb) hholder)

namespace Setting

theorem emits_of_settles {s : Setting} {steps : List Step} {interface binding : String}
    {role role' : Role} (hsettle : Settles interface binding role steps)
    (hrequest : .request interface role' binding ∈ steps) {name : String}
    (hreach : s.index.Reaches interface name) {member : Member}
    (hmem : member ∈ s.index.elements name) :
    s.Emits [] steps (member.node (role.scope binding) role.isStatic) := by
  refine .inr ⟨interface, binding, role, List.not_mem_nil, ?_, name, .inl hreach, member, hmem, rfl⟩
  exact (hsettle.firstRole_eq role).mpr ⟨rfl, role', hrequest⟩

section Reference

variable {s : Setting} {sites : List Site} {site : Site} {binding : String} {entity : EntityName}
  {args : List TypeExpr}

theorem typeOf_reference (hindex : s.index.IsOf sites) (hagree : TypesAgree sites)
    (hsite : site ∈ sites) (htyped : (binding, .reference entity args) ∈ site.typedVariables) :
    s.index.typeOf binding = some entity.text :=
  hindex.typeOf_eq hagree (Site.annotation_of_typedVariable hsite htyped)

/-- The type of a variable is described on its static side. -/
theorem static_side (hindex : s.index.IsOf sites) (hnames : WellNamed sites)
    (hagree : TypesAgree sites) (hsite : site ∈ sites)
    (htyped : (binding, .reference entity args) ∈ site.typedVariables) {interface : String}
    (hl : s.index.lookup entity.text site.scope = some interface)
    (hown : interface = binding → SimplyTyped sites binding) :
    ∃ role role', role.scope binding = binding ∧ role.isStatic = true ∧
      Settles interface binding role (sites.flatMap s.stepsAt) ∧
      .request interface role' binding ∈ sites.flatMap s.stepsAt := by
  obtain ⟨name, hident, rfl⟩ := hnames.typedVariable hsite htyped
  have hknown := typeOf_reference hindex hagree hsite htyped
  have hrole : ∀ other, s.roleOf other (Name.qualify name site.scope) (some entity.text) =
      Role.classify other (Name.qualify name site.scope) (some interface) := by
    intro other
    exact s.roleOf_of_lookup ((Name.parent_qualify hident site.scope).symm ▸ hl)
  have hclear : s.Unmistaken sites (Name.qualify name site.scope) := by
    intro _ hcomplex
    have hne : interface ≠ Name.qualify name site.scope := fun heq => hcomplex (hown heq)
    rw [hknown, hrole]
    simp [Role.classify, hne]
  have hsettle := stepsAt_settle hindex hnames hagree hclear interface
  rw [settledRole, hknown, hrole] at hsettle
  by_cases heq : interface = Name.qualify name site.scope
  · have hi := Index.hasInterface_of_lookup hl
    refine ⟨.ownType, .ownType, rfl, rfl, by simpa [Role.classify, heq] using hsettle, ?_⟩
    refine List.mem_flatMap.mpr ⟨site, hsite, s.mem_stepsAt.mpr (.inl ⟨_, htyped, rfl, ?_⟩)⟩
    rw [heq] at hi ⊢
    refine .own hi ?_
    rw [TypeExpr.simpleName?, hrole]
    simp [Role.classify, heq]
  · refine ⟨.constructorSide, .constructorSide, rfl, rfl,
      by simpa [Role.classify, Ne.symm heq] using hsettle, ?_⟩
    refine List.mem_flatMap.mpr ⟨site, hsite, s.mem_stepsAt.mpr (.inl ⟨_, htyped, rfl, ?_⟩)⟩
    refine .typed rfl hl heq ?_
    rw [hrole]
    simp [Role.classify, Ne.symm heq]

/-- The interface with the name of a variable is described on its instance side, where it is not the
type of the variable. -/
theorem instance_side (hindex : s.index.IsOf sites) (hnames : WellNamed sites)
    (hagree : TypesAgree sites) (hsite : site ∈ sites)
    (htyped : (binding, .reference entity args) ∈ site.typedVariables)
    (hi : s.index.hasInterface binding = true)
    (hl : s.index.lookup entity.text site.scope ≠ some binding) :
    Settles binding binding .instanceSide (sites.flatMap s.stepsAt) ∧
      .request binding .instanceSide binding ∈ sites.flatMap s.stepsAt := by
  obtain ⟨name, hident, rfl⟩ := hnames.typedVariable hsite htyped
  have hknown := typeOf_reference hindex hagree hsite htyped
  have hother : (s.index.lookup entity.text site.scope).getD entity.text ≠
      Name.qualify name site.scope := by
    cases hfound : s.index.lookup entity.text site.scope with
    | some found => exact fun heq => hl (hfound.trans (congrArg some heq))
    | none =>
      intro heq
      rw [Option.getD_none] at heq
      exact Index.lookup_ne_none (heq ▸ hi) site.scope hfound
  have hrole : s.roleOf (Name.qualify name site.scope) (Name.qualify name site.scope)
      (some entity.text) = some .instanceSide := by
    simpa [roleOf, Role.classify, Name.parent_qualify hident site.scope] using hother
  have hclear : s.Unmistaken sites (Name.qualify name site.scope) :=
    fun _ _ => hknown.symm ▸ hrole
  have hsettle := stepsAt_settle hindex hnames hagree hclear (Name.qualify name site.scope)
  rw [settledRole, hknown, hrole] at hsettle
  refine ⟨hsettle, ?_⟩
  refine List.mem_flatMap.mpr ⟨site, hsite, s.mem_stepsAt.mpr (.inl ⟨_, htyped, rfl, ?_⟩)⟩
  exact .own hi hrole

end Reference

end Setting

namespace Catalog

/-- The node of a member under a scope is written in the catalog under its id. -/
def Lists (catalog : Catalog) (scope : String) (isStatic : Bool) (member : Member) : Prop :=
  ∃ node, member.resolve scope isStatic = .ok node ∧ node.record ∈ catalog.recordsOf node.id

theorem IsOf.lists {catalog : Catalog} {s : Setting} {sites : List Site} (h : catalog.IsOf s sites)
    {interface binding : String} {role role' : Role} (hb : binding ≠ "")
    (hplain : ¬Node.placeholderId.toList <+: binding.toList)
    (hsettle : Settles interface binding role (sites.flatMap s.stepsAt))
    (hrequest : .request interface role' binding ∈ sites.flatMap s.stepsAt) :
    ∀ name, s.index.Reaches interface name → ∀ member ∈ s.index.elements name,
      catalog.Lists (role.scope binding) role.isStatic member := by
  intro name hreach member hmem
  refine ⟨_, Member.resolve_ok (role.scope_ne_empty hb) role.isStatic member, ?_⟩
  have hemits := Setting.emits_of_settles hsettle hrequest hreach hmem
  refine (h.records _ _).mpr ⟨_, hemits, ?_, rfl, rfl⟩
  exact Member.node_isPlaceholder hb hplain role member

/-- Where types agree, every member that the type of a variable reaches is listed under the
variable, and every member that the interface of its name reaches under its prototype, unless that
is its type. The one exception is a name that is also given a complex type. -/
theorem build_sides (corpus : Corpus) (options : Options)
    (hagree : TypesAgree (fileSites .stepwise corpus.files)) {site : Site}
    (hsite : site ∈ fileSites .stepwise corpus.files) {binding : String} {entity : EntityName}
    {args : List TypeExpr} (htyped : (binding, .reference entity args) ∈ site.typedVariables)
    (hplain : ¬Node.placeholderId.toList <+: binding.toList) :
    ∃ catalog, build corpus options = .ok catalog ∧
      (∀ interface, corpus.index.lookup entity.text site.scope = some interface →
        (interface = binding → SimplyTyped (fileSites .stepwise corpus.files) binding) →
        ∀ name, corpus.index.Reaches interface name → ∀ member ∈ corpus.index.elements name,
          catalog.Lists binding true member) ∧
      (corpus.index.hasInterface binding = true →
        corpus.index.lookup entity.text site.scope ≠ some binding →
        ∀ name, corpus.index.Reaches binding name → ∀ member ∈ corpus.index.elements name,
          catalog.Lists (Name.qualify Role.prototypeName binding) false member) := by
  have hindex : (corpus.setting options).index.IsOf (fileSites .stepwise corpus.files) :=
    corpus.index_isOf
  have hnames := wellNamed_fileSites corpus.files
  have hb : binding ≠ "" := by
    obtain ⟨name, hident, rfl⟩ := hnames.typedVariable hsite htyped
    exact Name.qualify_ne_empty hident.1 _
  obtain ⟨catalog, hbuild, hcatalog⟩ := build_isOf corpus options
  refine ⟨catalog, hbuild, ?_, ?_⟩
  · intro interface hl hown
    obtain ⟨role, role', hscope, hstatic, hsettle, hrequest⟩ :=
      Setting.static_side hindex hnames hagree hsite htyped hl hown
    have hlists := hcatalog.lists hb hplain hsettle hrequest
    rwa [hscope, hstatic] at hlists
  · intro hi hl
    obtain ⟨hsettle, hrequest⟩ :=
      Setting.instance_side hindex hnames hagree hsite htyped hi hl
    exact hcatalog.lists hb hplain hsettle hrequest

theorem build_sides_map :
    ∃ catalog, build (Corpus.ofFiles [mapGlobals, mapTypes]) {} = .ok catalog ∧
      catalog.Lists "Map" true (.method (.ident "groupBy") false (.mk [] [] none)) ∧
      catalog.Lists "Map.prototype" false
        (.property (.ident "size") false true (some (.keyword .number))) := by
  obtain ⟨catalog, hbuild, hstatic, hinstance⟩ :=
    build_sides (Corpus.ofFiles [mapGlobals, mapTypes]) {} (by decide)
      (List.mem_cons_self : (⟨"file:///globals.d.ts", "", ⟨1, 1⟩, some (.variableDecl ⟨false, true,
        [.ident "Map" (some (.reference (.ident "MapConstructor") []))]⟩)⟩ : Site) ∈ _)
      (List.mem_cons_self : ("Map", TypeExpr.reference (.ident "MapConstructor") []) ∈ _)
      (by decide)
  refine ⟨catalog, hbuild, ?_, ?_⟩
  · refine hstatic "MapConstructor" (by decide +kernel) (fun h => absurd h (by decide))
      "MapConstructor" .refl _ ?_
    exact List.mem_cons_of_mem _ List.mem_cons_self
  · refine hinstance (by decide) (by decide +kernel) "Sized" ?_ _ List.mem_cons_self
    exact Relation.ReflTransGen.single (Index.mem_parents.mp (by decide +kernel))

def mistakenFile : SourceFile :=
  { id := 0
    specifier := "file:///mistaken.d.ts"
    mediaType := .dts
    items := [
      .mk ⟨1, 1⟩ (.plain (.variableDecl ⟨false, true, [.ident "__type" (some (.literalType
        [.property (.ident "x") false false (some (.keyword .string))]))]⟩)),
      .mk ⟨2, 1⟩ (.plain (.variableDecl ⟨false, true,
        [.ident "__type" (some (.reference (.ident "__type") []))]⟩)),
      .mk ⟨3, 1⟩ (.plain (.interfaceDecl ⟨"__type", [],
        [.property (.ident "a") false false (some (.keyword .number))]⟩))]
    named := by decide }

/-- Without the exception, both sides need not be complete: the complex type is met first and puts
the interface on the instance side. -/
theorem build_sides_mistaken :
    TypesAgree (fileSites .stepwise (Corpus.ofFiles [mistakenFile]).files) ∧
      ¬Node.placeholderId.toList <+: "__type".toList ∧
      ∃ site ∈ fileSites .stepwise (Corpus.ofFiles [mistakenFile]).files,
        ("__type", .reference (.ident "__type") []) ∈ site.typedVariables ∧
        (Corpus.ofFiles [mistakenFile]).index.lookup "__type" site.scope = some "__type" ∧
        ∃ catalog, build (Corpus.ofFiles [mistakenFile]) {} = .ok catalog ∧
          ∃ member ∈ (Corpus.ofFiles [mistakenFile]).index.elements "__type",
            ¬catalog.Lists "__type" true member := by
  refine ⟨by decide, by decide, _, List.mem_cons_of_mem _ List.mem_cons_self,
    List.mem_cons_self, by decide +kernel, ?_⟩
  have hempty : (build (Corpus.ofFiles [mistakenFile]) {}).toOption.map
      (fun catalog => catalog.recordsOf "__type.a") = some [] := by decide +kernel
  cases hbuild : build (Corpus.ofFiles [mistakenFile]) {} with
  | error e => simp [hbuild, Except.toOption] at hempty
  | ok catalog =>
    refine ⟨catalog, rfl, _, List.mem_cons_self, ?_⟩
    rintro ⟨node, hresolve, hmem⟩
    have hid : node.id = "__type.a" := by
      rw [Member.resolve_ok (by decide)] at hresolve
      rw [← Except.ok.inj hresolve, Member.node_id (by decide)]
      decide
    simp only [hbuild, Except.toOption, Option.map_some, Option.some.injEq] at hempty
    rw [hid, hempty] at hmem
    exact absurd hmem List.not_mem_nil

end Catalog

end AmbientCatalog
