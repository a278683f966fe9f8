import AmbientCatalog.Proofs.Sides

/-!
# The instance side of a constructor type

A variable whose type can construct, and whose name no interface has, takes what its type constructs
as its instance side. Each constructed interface is asked for on the instance side, and no other
statement asks for it in another role, unless the type constructs itself: then the type has been
asked for on the static side already, and its members never reach the prototype.
-/

set_option autoImplicit false

namespace AmbientCatalog

def Member.builtName? : Member → Option String
  | .construct signature => signature.result.bind TypeExpr.simpleName?
  | _ => none

namespace Setting

theorem constructed_eq (s : Setting) (interface : String) :
    s.constructed interface = ((s.index.elements interface).filterMap (fun member =>
      member.builtName?.bind
        (fun name => s.index.lookup name (Name.parent interface)))).eraseDups := by
  rw [Index.elements, List.filterMap_flatMap]
  refine congrArg List.eraseDups (List.flatMap_congr fun decl _ => ?_)
  apply List.filterMap_congr
  intro member _
  cases member with
  | construct signature =>
    obtain ⟨generics, params, result⟩ := signature
    cases result <;> rfl
  | _ => rfl

theorem mem_constructed {s : Setting} {interface result : String} :
    result ∈ s.constructed interface ↔ ∃ member ∈ s.index.elements interface,
      ∃ name, member.builtName? = some name ∧
        s.index.lookup name (Name.parent interface) = some result := by
  simp only [constructed_eq, List.mem_eraseDups, List.mem_filterMap, Option.bind_eq_some_iff]

section Reference

variable {s : Setting} {sites : List Site} {site : Site} {binding : String} {entity : EntityName}
  {args : List TypeExpr}

/-- What the type of a variable constructs is described on the instance side of the variable, where
it is not the type itself. -/
theorem constructed_side (hindex : s.index.IsOf sites) (hnames : WellNamed sites)
    (hagree : TypesAgree sites) (hsite : site ∈ sites)
    (htyped : (binding, .reference entity args) ∈ site.typedVariables) {interface : String}
    (hl : s.index.lookup entity.text site.scope = some interface)
    (hnone : s.index.hasInterface binding = false)
    (hc : s.index.isConstructorType interface = true) {result : String}
    (hresult : result ∈ s.constructed interface) (hother : result ≠ interface) :
    Settles result binding .instanceSide (sites.flatMap s.stepsAt) ∧
      .request result .instanceSide binding ∈ sites.flatMap s.stepsAt := by
  have hne : result ≠ binding := by
    rintro rfl
    obtain ⟨_, -, name, -, hfound⟩ := mem_constructed.mp hresult
    exact absurd (Index.hasInterface_of_lookup hfound) (by simp [hnone])
  constructor
  · obtain ⟨name, hident, rfl⟩ := hnames.typedVariable hsite htyped
    have hclear : s.Unmistaken sites (Name.qualify name site.scope) :=
      fun hi => absurd hi (by simp [hnone])
    have hsettle := stepsAt_settle hindex hnames hagree hclear result
    have hrole : s.roleOf result (Name.qualify name site.scope) (some entity.text) =
        Role.classify result (Name.qualify name site.scope) (some interface) :=
      s.roleOf_of_lookup ((Name.parent_qualify hident site.scope).symm ▸ hl)
    rw [settledRole, typeOf_reference hindex hagree hsite htyped, hrole] at hsettle
    simpa [Role.classify, Ne.symm hne, Ne.symm hother] using hsettle
  · refine List.mem_flatMap.mpr ⟨site, hsite, s.mem_stepsAt.mpr (.inl ⟨_, htyped, rfl, ?_⟩)⟩
    exact .built rfl hl hnone hc hresult hne

end Reference

end Setting

namespace Catalog

/-- What a construct signature of a variable's type returns, if it is an interface other than that
type and none has the variable's name, is listed under the variable's prototype with every member it
reaches. -/
theorem build_constructed (corpus : Corpus) (options : Options)
    (hagree : TypesAgree (fileSites .stepwise corpus.files)) {site : Site}
    (hsite : site ∈ fileSites .stepwise corpus.files) {binding : String} {entity : EntityName}
    {args : List TypeExpr} (htyped : (binding, .reference entity args) ∈ site.typedVariables)
    (hplain : ¬Node.placeholderId.toList <+: binding.toList) {interface : String}
    (hl : corpus.index.lookup entity.text site.scope = some interface)
    (hnone : corpus.index.hasInterface binding = false) :
    ∃ catalog, build corpus options = .ok catalog ∧
      ∀ generics params result resultArgs,
        .construct (.mk generics params (some (.reference result resultArgs))) ∈
          corpus.index.elements interface →
        ∀ instance_, corpus.index.lookup result.text (Name.parent interface) = some instance_ →
        instance_ ≠ interface →
        ∀ name, corpus.index.Reaches instance_ name → ∀ member ∈ corpus.index.elements name,
          catalog.Lists (Name.qualify Role.prototypeName binding) false member := by
  have hindex : (corpus.setting options).index.IsOf (fileSites .stepwise corpus.files) :=
    corpus.index_isOf
  have hnames := wellNamed_fileSites corpus.files
  have hb : binding ≠ "" := by
    obtain ⟨name, hident, rfl⟩ := hnames.typedVariable hsite htyped
    exact Name.qualify_ne_empty hident.1 _
  obtain ⟨catalog, hbuild, hcatalog⟩ := build_isOf corpus options
  refine ⟨catalog, hbuild, ?_⟩
  intro generics params result resultArgs hconstruct instance_ hfound hother
  have hc : corpus.index.isConstructorType interface = true := by
    obtain ⟨decl, hdecl, hmember⟩ := List.mem_flatMap.mp hconstruct
    refine (hindex.constructs interface).mpr ⟨decl, hindex.mem_interfaces.mp hdecl, ?_⟩
    exact List.any_eq_true.mpr ⟨_, hmember, rfl⟩
  have hresult : instance_ ∈ (corpus.setting options).constructed interface :=
    Setting.mem_constructed.mpr ⟨_, hconstruct, _, rfl, hfound⟩
  obtain ⟨hsettle, hrequest⟩ :=
    Setting.constructed_side hindex hnames hagree hsite htyped hl hnone hc hresult hother
  exact hcatalog.lists hb hplain hsettle hrequest

def clockFile : SourceFile :=
  { id := 0
    specifier := "file:///clock.d.ts"
    mediaType := .dts
    items := [
      .mk ⟨1, 1⟩ (.plain (.variableDecl ⟨false, true,
        [.ident "clock" (some (.reference (.ident "ClockConstructor") []))]⟩)),
      .mk ⟨2, 1⟩ (.plain (.interfaceDecl ⟨"ClockConstructor", [],
        [.construct (.mk [] [] (some (.reference (.ident "Clock") [])))]⟩)),
      .mk ⟨3, 1⟩ (.plain (.interfaceDecl ⟨"Clock", [.ident "Timer"], []⟩)),
      .mk ⟨4, 1⟩ (.plain (.interfaceDecl ⟨"Timer", [],
        [.method (.ident "tick") false (.mk [] [] none)]⟩))]
    named := by decide }

theorem build_constructed_clock :
    ∃ catalog, build (Corpus.ofFiles [clockFile]) {} = .ok catalog ∧
      catalog.Lists "clock.prototype" false (.method (.ident "tick") false (.mk [] [] none)) := by
  obtain ⟨catalog, hbuild, hinstance⟩ :=
    build_constructed (Corpus.ofFiles [clockFile]) {} (by decide)
      (List.mem_cons_self : (⟨"file:///clock.d.ts", "", ⟨1, 1⟩, some (.variableDecl ⟨false, true,
        [.ident "clock" (some (.reference (.ident "ClockConstructor") []))]⟩)⟩ : Site) ∈ _)
      (List.mem_cons_self : ("clock", TypeExpr.reference (.ident "ClockConstructor") []) ∈ _)
      (by decide) (by decide +kernel : _ = some "ClockConstructor") (by decide)
  refine ⟨catalog, hbuild, ?_⟩
  refine hinstance [] [] (.ident "Clock") [] List.mem_cons_self "Clock" (by decide +kernel)
    (by decide) "Timer" ?_ _ List.mem_cons_self
  exact Relation.ReflTransGen.single (Index.mem_parents.mp (by decide +kernel))

def widgetFile : SourceFile :=
  { id := 0
    specifier := "file:///widget.d.ts"
    mediaType := .dts
    items := [
      .mk ⟨1, 1⟩ (.plain (.interfaceDecl ⟨"Widget", [],
        [.construct (.mk [] [] (some (.reference (.ident "Widget") [])))]⟩)),
      .mk ⟨2, 1⟩ (.plain (.variableDecl ⟨false, true,
        [.ident "widget" (some (.reference (.ident "Widget") []))]⟩))]
    named := by decide }

/-- Where the type of a variable constructs itself, the instance side is missing: the type has been
described on the static side and is not described again. -/
theorem build_constructed_widget :
    TypesAgree (fileSites .stepwise (Corpus.ofFiles [widgetFile]).files) ∧
      ¬Node.placeholderId.toList <+: "widget".toList ∧
      (Corpus.ofFiles [widgetFile]).index.hasInterface "widget" = false ∧
      (∃ site ∈ fileSites .stepwise (Corpus.ofFiles [widgetFile]).files,
        ("widget", .reference (.ident "Widget") []) ∈ site.typedVariables ∧
        (Corpus.ofFiles [widgetFile]).index.lookup "Widget" site.scope = some "Widget") ∧
      .construct (.mk [] [] (some (.reference (.ident "Widget") []))) ∈
        (Corpus.ofFiles [widgetFile]).index.elements "Widget" ∧
      (Corpus.ofFiles [widgetFile]).index.lookup "Widget" (Name.parent "Widget") = some "Widget" ∧
      ∃ catalog, build (Corpus.ofFiles [widgetFile]) {} = .ok catalog ∧
        ∃ member ∈ (Corpus.ofFiles [widgetFile]).index.elements "Widget",
          ¬catalog.Lists "widget.prototype" false member := by
  refine ⟨by decide, by decide, by decide, ⟨_, List.mem_cons_of_mem _ List.mem_cons_self,
    List.mem_cons_self, by decide +kernel⟩, List.mem_cons_self, by decide +kernel, ?_⟩
  have hempty : (build (Corpus.ofFiles [widgetFile]) {}).toOption.map
      (fun catalog => catalog.recordsOf "widget.prototype.new") = some [] := by decide +kernel
  cases hbuild : build (Corpus.ofFiles [widgetFile]) {} with
  | error e => simp [hbuild, Except.toOption] at hempty
  | ok catalog =>
    refine ⟨catalog, rfl, _, List.mem_cons_self, ?_⟩
    rintro ⟨node, hresolve, hmem⟩
    have hid : node.id = "widget.prototype.new" := by
      rw [Member.resolve_ok (by decide)] at hresolve
      rw [← Except.ok.inj hresolve, Member.node_id (by decide)]
      decide
    simp only [hbuild, Except.toOption, Option.map_some, Option.some.injEq] at hempty
    rw [hid, hempty] at hmem
    exact absurd hmem List.not_mem_nil

end Catalog

end AmbientCatalog
