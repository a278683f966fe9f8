import AmbientCatalog.Proofs.Sides

/-!
# What is put on a variable itself

The members of an interface go onto a variable itself, and not onto its prototype, when the
interface is asked for as the type of the variable. The index answers what type a name has from one
table, in which the results of functions stand beside the types of variables, keywords beside names,
and all complex types as one and the same name. So a request can come from a misread annotation:
from a function that has the name of the interface it returns, or from a variable whose keyword or
complex type reads like the name of an interface. All other requests of this kind are right, and
there is a variable with a reference to the interface.
-/

set_option autoImplicit false

namespace AmbientCatalog

namespace Index

def Typed (index : Index) (sites : List Site) (interface binding : String) : Prop :=
  ∃ site ∈ sites, ∃ entity args, (binding, .reference entity args) ∈ site.typedVariables ∧
    index.lookup entity.text site.scope = some interface

/-- The recorded name of an annotation means the interface where the annotation stands. -/
def Reads (index : Index) (site : Site) (interface binding : String)
    (typed : String × TypeExpr) : Prop :=
  typed.1 = binding ∧ index.lookup typed.2.recordedName site.scope = some interface

instance (index : Index) (site : Site) (interface binding : String) (typed : String × TypeExpr) :
    Decidable (index.Reads site interface binding typed) :=
  inferInstanceAs (Decidable (typed.1 = binding ∧
    index.lookup typed.2.recordedName site.scope = some interface))

/-- Something other than a reference of a variable is read as one: a keyword, or else the result of
a function or a complex type under the interface's own name. -/
def Misreads (index : Index) (sites : List Site) (interface binding : String) : Prop :=
  ∃ site ∈ sites,
    (∃ typed ∈ site.typedVariables, index.Reads site interface binding typed ∧
      typed.2.isKeyword = true) ∨
    (binding = interface ∧
      ((∃ typed ∈ site.typedFunctions, index.Reads site interface binding typed) ∨
        ∃ typed ∈ site.typedVariables, index.Reads site interface binding typed ∧
          typed.2.simpleName? = none))

instance (index : Index) (sites : List Site) (interface binding : String) :
    Decidable (index.Misreads sites interface binding) :=
  inferInstanceAs (Decidable (∃ site ∈ sites,
    (∃ typed ∈ site.typedVariables, index.Reads site interface binding typed ∧
      typed.2.isKeyword = true) ∨
    (binding = interface ∧
      ((∃ typed ∈ site.typedFunctions, index.Reads site interface binding typed) ∨
        ∃ typed ∈ site.typedVariables, index.Reads site interface binding typed ∧
          typed.2.simpleName? = none))))

/-- A variable whose recorded type name means an interface is of that type, or is misread. A complex
type is only misread under the interface's own name. -/
theorem typed_or_misreads {index : Index} {sites : List Site} {site : Site} (hsite : site ∈ sites)
    {interface binding : String} {type : TypeExpr} (htyped : (binding, type) ∈ site.typedVariables)
    (hl : index.lookup type.recordedName site.scope = some interface)
    (hown : type.simpleName? = none → binding = interface) :
    index.Typed sites interface binding ∨ index.Misreads sites interface binding := by
  have hreads : index.Reads site interface binding (binding, type) := ⟨rfl, hl⟩
  cases type with
  | reference entity args => exact .inl ⟨site, hsite, entity, args, htyped, hl⟩
  | keyword word => exact .inr ⟨site, hsite, .inl ⟨_, htyped, hreads, rfl⟩⟩
  | _ => exact .inr ⟨site, hsite, .inr ⟨hown rfl, .inr ⟨_, htyped, hreads, rfl⟩⟩⟩

end Index

theorem WellNamed.parent_typedFunction {sites : List Site} (h : WellNamed sites) {site : Site}
    (hsite : site ∈ sites) {name : String} {type : TypeExpr}
    (hmem : (name, type) ∈ site.typedFunctions) : Name.parent name = site.scope := by
  obtain ⟨specifier, scope, start, decl?⟩ := site
  have hnames := h _ hsite
  cases decl? with
  | none => simp [Site.typedFunctions] at hmem
  | some declared =>
    cases declared with
    | functionDecl decl =>
      obtain ⟨_, -, heq⟩ := List.mem_map.mp hmem
      rw [← (Prod.mk.inj heq).1]
      exact Name.parent_qualify (hnames decl.name (List.mem_singleton_self _)) scope
    | _ => simp [Site.typedFunctions] at hmem

theorem WellNamed.parent_typedVariable {sites : List Site} (h : WellNamed sites) {site : Site}
    (hsite : site ∈ sites) {binding : String} {type : TypeExpr}
    (hmem : (binding, type) ∈ site.typedVariables) : Name.parent binding = site.scope := by
  obtain ⟨name, hident, rfl⟩ := h.typedVariable hsite hmem
  exact Name.parent_qualify hident site.scope

theorem Role.eq_of_classify {interface binding : String} {type : Option String} {role : Role}
    (h : Role.classify interface binding type = some role) (hstatic : role.isStatic = true) :
    type = some interface := by
  unfold Role.classify at h
  split_ifs at h with hb ht ht
  · exact ht
  · obtain rfl := Option.some.inj h
    simp [Role.isStatic] at hstatic
  · exact ht

namespace Setting

variable {s : Setting} {sites : List Site} {interface binding : String} {role : Role}

theorem lookup_of_roleOf {type : Option String} (hi : s.index.hasInterface interface = true)
    (hr : s.roleOf interface binding type = some role) (hstatic : role.isStatic = true) :
    ∃ name, type = some name ∧ s.index.lookup name (Name.parent binding) = some interface := by
  cases type with
  | none =>
    have htype := Role.eq_of_classify hr hstatic
    simp at htype
  | some name =>
    have htype := Role.eq_of_classify hr hstatic
    cases hl : s.index.lookup name (Name.parent binding) with
    | some found => simpa [hl] using htype
    | none =>
      -- the name itself stands in for what is not found, but an interface is always found
      obtain rfl : name = interface := by simpa [hl] using htype
      exact absurd hl (Index.lookup_ne_none hi _)

theorem Asks.lookup {scope : String} {type : TypeExpr}
    (h : s.Asks binding scope type interface role) (hstatic : role.isStatic = true)
    (hparent : Name.parent binding = scope) :
    ∃ name, type.simpleName? = some name ∧ s.index.lookup name scope = some interface := by
  cases h with
  | own hi hr =>
    obtain ⟨name, ht, hl⟩ := lookup_of_roleOf hi hr hstatic
    exact ⟨name, ht, hparent ▸ hl⟩
  | typed ht hl hne hr => exact ⟨_, ht, hl⟩
  | built ht hl hown hc hmem hne => simp [Role.isStatic] at hstatic

theorem typed_of_asks (hnames : WellNamed sites) {site : Site} (hsite : site ∈ sites)
    {type : TypeExpr} (htyped : (binding, type) ∈ site.typedVariables)
    (hk : type.isKeyword = false) (h : s.Asks binding site.scope type interface role)
    (hstatic : role.isStatic = true) : s.index.Typed sites interface binding := by
  obtain ⟨name, ht, hl⟩ := h.lookup hstatic (hnames.parent_typedVariable hsite htyped)
  cases type with
  | reference entity args =>
    obtain rfl := Option.some.inj ht
    exact ⟨site, hsite, entity, args, htyped, hl⟩
  | keyword word => simp [TypeExpr.isKeyword] at hk
  | _ => simp [TypeExpr.simpleName?] at ht

/-- The statement of an interface asks in a static role only for a variable of that type, unless an
annotation is misread. -/
theorem typed_of_concerns (hindex : s.index.IsOf sites) (hnames : WellNamed sites)
    (hi : s.index.hasInterface interface = true) (hc : s.index.Concerns interface binding)
    (hr : s.roleOf interface binding (s.index.typeOf binding) = some role)
    (hstatic : role.isStatic = true) :
    s.index.Typed sites interface binding ∨ s.index.Misreads sites interface binding := by
  rcases hc with ⟨hsame, -⟩ | ⟨-, hname⟩
  · obtain ⟨typeName, htype, hl⟩ := lookup_of_roleOf hi hr hstatic
    obtain ⟨site, hsite, hin⟩ := List.mem_flatMap.mp (hindex.annotation_of_typeOf htype)
    obtain ⟨⟨_, type⟩, htyped, heq⟩ := List.mem_map.mp hin
    obtain ⟨rfl, rfl⟩ := Prod.mk.inj heq
    rcases List.mem_append.mp htyped with hfunction | hvariable
    · rw [hnames.parent_typedFunction hsite hfunction] at hl
      exact .inr ⟨site, hsite, .inr ⟨hsame, .inl ⟨_, hfunction, rfl, hl⟩⟩⟩
    · rw [hnames.parent_typedVariable hsite hvariable] at hl
      exact Index.typed_or_misreads hsite hvariable hl (fun _ => hsame)
  · -- the type name was qualified where the variable stands, and that scope is searched first
    obtain ⟨site, hsite, type, typeName, htyped, ht, rfl⟩ := hindex.typing_of_nameOfType hname
    have hl : s.index.lookup type.recordedName site.scope =
        some (Name.qualify typeName site.scope) := by
      rw [TypeExpr.recordedName, ht, Option.getD_some]
      exact Index.lookup_innermost hi
    exact Index.typed_or_misreads hsite htyped hl (fun hnone => by simp [ht] at hnone)

theorem typed_of_request (hindex : s.index.IsOf sites) (hnames : WellNamed sites)
    (hrequest : .request interface role binding ∈ sites.flatMap s.stepsAt)
    (hstatic : role.isStatic = true) :
    s.index.Typed sites interface binding ∨ s.index.Misreads sites interface binding := by
  obtain ⟨site, hsite, hmem⟩ := List.mem_flatMap.mp hrequest
  rcases s.mem_stepsAt.mp hmem with ⟨type, htyped, hk, hasks⟩ | ⟨⟨decl, hdecl⟩, hconcerns, hr⟩
  · exact .inl (typed_of_asks hnames hsite htyped hk hasks hstatic)
  · have hi := hindex.hasInterface_iff.mpr ⟨decl, List.mem_flatMap.mpr ⟨site, hsite, hdecl⟩⟩
    exact typed_of_concerns hindex hnames hi hconcerns hr hstatic

end Setting

namespace Catalog

def plan (corpus : Corpus) (options : Options) : List Step :=
  (fileSites .stepwise corpus.files).flatMap (corpus.setting options).stepsAt

/-- Whenever the plan asks for an interface in a role that puts its members onto a variable itself,
a variable of that name is annotated with a reference that means it, as long as nothing is misread
as one. -/
theorem build_static (corpus : Corpus) (options : Options) :
    build corpus options = ((corpus.setting options).performAll (plan corpus options)
      []).map (fun done => ⟨Registry.empty.saveAll done.1,
        (fileSites .stepwise corpus.files).flatMap Site.diagnostics⟩) ∧
    ∀ interface role binding, .request interface role binding ∈ plan corpus options →
      role.isStatic = true →
      ¬corpus.index.Misreads (fileSites .stepwise corpus.files) interface binding →
        corpus.index.Typed (fileSites .stepwise corpus.files) interface binding := by
  refine ⟨build_eq corpus options, fun interface role binding hrequest hstatic hread => ?_⟩
  have htyped := Setting.typed_of_request (s := (corpus.setting options)) corpus.index_isOf
    (wellNamed_fileSites corpus.files) hrequest hstatic
  exact htyped.resolve_right hread

theorem build_static_map :
    .request "MapConstructor" .constructorSide "Map" ∈
        plan (Corpus.ofFiles [mapGlobals, mapTypes]) {} ∧
      Role.constructorSide.isStatic = true ∧
      ¬(Corpus.ofFiles [mapGlobals, mapTypes]).index.Misreads
        (fileSites .stepwise (Corpus.ofFiles [mapGlobals, mapTypes]).files)
        "MapConstructor" "Map" ∧
      (Corpus.ofFiles [mapGlobals, mapTypes]).index.Typed
        (fileSites .stepwise (Corpus.ofFiles [mapGlobals, mapTypes]).files)
        "MapConstructor" "Map" := by
  have hrequest : .request "MapConstructor" .constructorSide "Map" ∈
      plan (Corpus.ofFiles [mapGlobals, mapTypes]) {} := by
    refine List.mem_flatMap.mpr ⟨_, List.mem_cons_self, (Setting.mem_stepsAt _).mpr (.inl
      ⟨_, List.mem_cons_self, rfl, .typed rfl ?_ (by decide) ?_⟩)⟩ <;> decide +kernel
  have hread : ¬(Corpus.ofFiles [mapGlobals, mapTypes]).index.Misreads
      (fileSites .stepwise (Corpus.ofFiles [mapGlobals, mapTypes]).files)
      "MapConstructor" "Map" := by decide +kernel
  exact ⟨hrequest, rfl, hread, (build_static _ {}).2 _ _ _ hrequest rfl hread⟩

def timerFile : SourceFile :=
  { id := 0
    specifier := "file:///timer.d.ts"
    mediaType := .dts
    items := [
      .mk ⟨1, 1⟩ (.plain (.interfaceDecl ⟨"Timer", [],
        [.method (.ident "stop") false (.mk [] [] (some (.keyword .void)))]⟩)),
      .mk ⟨2, 1⟩ (.plain (.functionDecl ⟨"Timer", true,
        .mk [] [] (some (.reference (.ident "Timer") []))⟩))]
    named := by decide }

/-- A function can be misread: no variable is declared at all, and still the member of the interface
is listed under the function, as if the function were a value of its result type. -/
theorem build_static_timer :
    .request "Timer" .ownType "Timer" ∈ plan (Corpus.ofFiles [timerFile]) {} ∧
      Role.ownType.isStatic = true ∧
      ¬(Corpus.ofFiles [timerFile]).index.Typed
        (fileSites .stepwise (Corpus.ofFiles [timerFile]).files) "Timer" "Timer" ∧
      ∃ catalog, build (Corpus.ofFiles [timerFile]) {} = .ok catalog ∧
        catalog.Lists "Timer" true
          (.method (.ident "stop") false (.mk [] [] (some (.keyword .void)))) := by
  refine ⟨?_, rfl, ?_, ?_⟩
  · refine List.mem_flatMap.mpr ⟨_, List.mem_cons_self, (Setting.mem_stepsAt _).mpr (.inr
      ⟨⟨_, List.mem_cons_self⟩, .inl ⟨rfl, by decide⟩, ?_⟩)⟩
    decide +kernel
  · rintro ⟨site, hsite, entity, args, htyped, -⟩
    have hnone : ∀ site ∈ fileSites .stepwise (Corpus.ofFiles [timerFile]).files,
        site.typedVariables = [] := by
      intro site hsite
      rcases List.mem_cons.mp hsite with rfl | hrest
      · rfl
      · obtain rfl := List.mem_singleton.mp hrest
        rfl
    rw [hnone site hsite] at htyped
    exact List.not_mem_nil htyped
  · have hlisted : (build (Corpus.ofFiles [timerFile]) {}).toOption.map (fun catalog =>
        decide ((Member.node "Timer" true (.method (.ident "stop") false
          (.mk [] [] (some (.keyword .void))))).record ∈ catalog.recordsOf "Timer.stop")) =
        some true := by decide +kernel
    cases hbuild : build (Corpus.ofFiles [timerFile]) {} with
    | error e => simp [hbuild, Except.toOption] at hlisted
    | ok catalog =>
      simp only [hbuild, Except.toOption, Option.map_some, Option.some.injEq,
        decide_eq_true_eq] at hlisted
      exact ⟨catalog, rfl, _, Member.resolve_ok (by decide) true _, hlisted⟩

end Catalog

end AmbientCatalog
