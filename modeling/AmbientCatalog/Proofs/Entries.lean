import AmbientCatalog.Proofs.Ownership
import AmbientCatalog.Proofs.Roles

/-!
# The entries of a catalog

A catalog has no entry without a reason. What it lists under a name are different overloads with
that name, and the name is, or stands under, that of a variable, function, class or namespace. A
member of an interface gets there only if the interface, or one that inherits it, describes a
variable or a function or is constructed by the type of one.
-/

set_option autoImplicit false

namespace AmbientCatalog

theorem WellNamed.owner_ne_empty {sites : List Site} (h : WellNamed sites) {site : Site}
    (hsite : site ∈ sites) {owner : String} (howner : owner ∈ site.owners) : owner ≠ "" := by
  obtain ⟨specifier, scope, start, decl?⟩ := site
  have hident := h _ hsite
  cases decl? with
  | none => simp [Site.owners, Site.values] at howner
  | some declared =>
    cases declared with
    | functionDecl decl =>
      obtain rfl := List.mem_singleton.mp howner
      exact Name.qualify_ne_empty (hident decl.name (List.mem_singleton_self _)).1 scope
    | variableDecl decl =>
      obtain ⟨name, hname, rfl⟩ := List.mem_map.mp howner
      exact Name.qualify_ne_empty (hident name hname).1 scope
    | classDecl decl =>
      obtain rfl := List.mem_singleton.mp howner
      exact Name.qualify_ne_empty (hident decl.name (List.mem_singleton_self _)).1 scope
    | namespaceDecl isDeclared parts items =>
      exact namespacesIn_ne_empty (fun part hpart => (hident part hpart).1) owner howner
    | _ => simp [Site.owners, Site.values] at howner

def Index.Describes (index : Index) (sites : List Site) (interface binding : String) : Prop :=
  ∃ typeName, (binding, typeName) ∈ sites.flatMap Site.annotations ∧
    (interface = binding ∨ index.lookup typeName (Name.parent binding) = some interface)

namespace Setting

/-- The interface describes the variable or function, or is constructed by one that does. -/
def Serves (s : Setting) (sites : List Site) (interface binding : String) : Prop :=
  s.index.Describes sites interface binding ∨
    ∃ type, s.index.Describes sites type binding ∧ interface ∈ s.constructed type

variable {s : Setting} {sites : List Site}

theorem asks_serves (hnames : WellNamed sites) {site : Site} (hsite : site ∈ sites)
    {binding : String} {type : TypeExpr} (htyped : (binding, type) ∈ site.typedVariables)
    {interface : String} {role : Role} (hasks : s.Asks binding site.scope type interface role) :
    s.Serves sites interface binding := by
  have hannotation := Site.annotation_of_typedVariable hsite htyped
  have hparent : Name.parent binding = site.scope := by
    obtain ⟨name, hident, rfl⟩ := hnames.typedVariable hsite htyped
    exact Name.parent_qualify hident site.scope
  have hrecorded : ∀ name, type.simpleName? = some name → type.recordedName = name := by
    intro name ht
    simp [TypeExpr.recordedName, ht]
  cases hasks with
  | own hi hr => exact .inl ⟨_, hannotation, .inl rfl⟩
  | typed ht hl hne hr =>
    exact .inl ⟨_, hannotation, .inr (by rw [hrecorded _ ht, hparent, hl])⟩
  | built ht hl hown hc hmem hne =>
    exact .inr ⟨_, ⟨_, hannotation, .inr (by rw [hrecorded _ ht, hparent, hl])⟩, hmem⟩

theorem concerns_describes (hindex : s.index.IsOf sites) {interface binding : String} {role : Role}
    (hi : s.index.hasInterface interface = true) (hconcerns : s.index.Concerns interface binding)
    (hrole : s.roleOf interface binding (s.index.typeOf binding) = some role) :
    s.index.Describes sites interface binding := by
  cases ht : s.index.typeOf binding with
  | some typeName =>
    refine ⟨typeName, hindex.annotation_of_typeOf ht, ?_⟩
    by_cases heq : interface = binding
    · exact .inl heq
    · refine .inr ?_
      have htype : (s.index.lookup typeName (Name.parent binding)).getD typeName = interface := by
        by_contra hne
        simp [ht, roleOf, Role.classify, Ne.symm heq, hne] at hrole
      cases hl : s.index.lookup typeName (Name.parent binding) with
      | some found => simpa [hl] using htype
      | none =>
        rw [hl, Option.getD_none] at htype
        exact absurd hl (Index.lookup_ne_none (htype ▸ hi) _)
  | none =>
    rcases hconcerns with ⟨rfl, hknown⟩ | ⟨-, hname⟩
    · simp [Index.isKnown, ht] at hknown
    · obtain ⟨site, hsite, type, -, htyped, -, -⟩ := hindex.typing_of_nameOfType hname
      refine ⟨_, Site.annotation_of_typedVariable hsite htyped, .inl ?_⟩
      by_contra heq
      simp [ht, roleOf, Role.classify, Ne.symm heq] at hrole

/-- Interfaces are asked for only on behalf of what they serve. -/
theorem request_serves (hindex : s.index.IsOf sites) (hnames : WellNamed sites)
    {interface binding : String} {role : Role}
    (h : .request interface role binding ∈ sites.flatMap s.stepsAt) :
    s.Serves sites interface binding := by
  obtain ⟨site, hsite, hmem⟩ := List.mem_flatMap.mp h
  rcases s.mem_stepsAt.mp hmem with ⟨type, htyped, -, hasks⟩ | ⟨⟨decl, hdecl⟩, hconcerns, hrole⟩
  · exact asks_serves hnames hsite htyped hasks
  · refine .inl (concerns_describes hindex ?_ hconcerns hrole)
    exact hindex.hasInterface_iff.mpr ⟨decl, List.mem_flatMap.mpr ⟨site, hsite, hdecl⟩⟩

theorem Serves.value {interface binding : String} (h : s.Serves sites interface binding) :
    ∃ site ∈ sites, binding ∈ site.values := by
  obtain ⟨typeName, hannotation⟩ :
      ∃ typeName, (binding, typeName) ∈ sites.flatMap Site.annotations := by
    rcases h with ⟨typeName, hmem, -⟩ | ⟨_, ⟨typeName, hmem, -⟩, -⟩
    · exact ⟨typeName, hmem⟩
    · exact ⟨typeName, hmem⟩
  obtain ⟨site, hsite, hmem⟩ := List.mem_flatMap.mp hannotation
  exact ⟨site, hsite, Site.value_of_recorded hmem⟩

def Origin (s : Setting) (sites : List Site) (node : Node) : Prop :=
  (∃ site ∈ sites, site.States node) ∨
    ∃ interface role binding, s.Serves sites interface binding ∧
      s.Bears interface role binding node

theorem emits_origin (hindex : s.index.IsOf sites) (hnames : WellNamed sites) {node : Node}
    (hplain : node.isPlaceholder = false) (h : s.Emits [] (sites.flatMap s.stepsAt) node) :
    s.Origin sites node := by
  rcases h with ⟨step, hstep, hnode⟩ | ⟨interface, binding, role, -, hfirst, hbears⟩
  · obtain ⟨site, hsite, hmem⟩ := List.mem_flatMap.mp hstep
    exact .inl ⟨site, hsite, s.fixed_states hmem hnode hplain⟩
  · obtain ⟨step, hstep, hrole⟩ := List.exists_of_findSome?_eq_some hfirst
    obtain rfl := Step.roleFor_eq_some.mp hrole
    exact .inr ⟨interface, role, binding, request_serves hindex hnames hstep, hbears⟩

theorem Origin.owner (hnames : WellNamed sites) {node : Node} (h : s.Origin sites node) :
    ∃ site ∈ sites, ∃ owner ∈ site.owners, node.StandsUnder owner ∧
      (node.kind.isSignature = true → owner ∈ site.values) := by
  rcases h with ⟨site, hsite, hstates⟩ | ⟨interface, role, binding, hserves, hbears⟩
  · exact ⟨site, hsite, hstates.owner hnames hsite⟩
  · obtain ⟨site, hsite, hvalue⟩ := hserves.value
    obtain ⟨name, -, member, -, rfl⟩ := hbears
    have howner : binding ∈ site.owners := Site.owner_of_value hvalue
    exact ⟨site, hsite, binding, howner,
      member.node_standsUnder (hnames.owner_ne_empty hsite howner) role, fun _ => hvalue⟩

end Setting

/-- Every entry has overloads, with different records, that have its name for id and name and that
stand under a declaration of the corpus, each given by a statement or by an interface that serves a
variable or a function. -/
theorem Catalog.build_entries (corpus : Corpus) (options : Options) :
    ∃ catalog, build corpus options = .ok catalog ∧
      ∀ name overloads, (name, overloads) ∈ catalog.registry.entries →
        overloads ≠ [] ∧ (overloads.map Node.record).Nodup ∧
        name ≠ "" ∧ ¬Node.placeholderId.toList <+: name.toList ∧
        ∀ node ∈ overloads, node.id = name ∧ node.name = name ∧
          (∃ site ∈ fileSites .stepwise corpus.files, ∃ owner ∈ site.owners,
            Name.Within owner name ∧ (node.kind.isSignature = true → owner ∈ site.values)) ∧
          (corpus.setting options).Origin (fileSites .stepwise corpus.files) node := by
  have hindex : (corpus.setting options).index.IsOf (fileSites .stepwise corpus.files) :=
    corpus.index_isOf
  have hnames := wellNamed_fileSites corpus.files
  obtain ⟨nodes, -, -, hbuild, hmem⟩ := build_run corpus options
  refine ⟨_, hbuild, ?_⟩
  intro name overloads hentry
  obtain ⟨kept, htable, rfl⟩ := Registry.mem_entries.mp hentry
  have hproper := Registry.saveAll_proper nodes _ htable
  have horigin : ∀ overload ∈ kept,
      (corpus.setting options).Origin (fileSites .stepwise corpus.files) overload.node := by
    intro overload hkept
    exact Setting.emits_origin hindex hnames (hproper.plain overload hkept)
      ((hmem overload.node).mp (hproper.saved overload hkept))
  obtain ⟨first, hfirst⟩ := List.exists_mem_of_ne_nil kept hproper.nonempty
  have hname : first.node.id = name := hproper.filed first hfirst
  refine ⟨by simpa using hproper.nonempty, hproper.records_eq ▸ hproper.distinct, ?_, ?_,
    fun node hnode => ?_⟩
  · obtain ⟨site, hsite, owner, howner, hstands, -⟩ := (horigin first hfirst).owner hnames
    exact hname ▸ hstands.within.ne_empty (hnames.owner_ne_empty hsite howner)
  · have hplain := hproper.plain first hfirst
    rw [Node.isPlaceholder, hname] at hplain
    exact fun hholder => by simp [List.isPrefixOf_iff_prefix.mpr hholder] at hplain
  · obtain ⟨overload, hkept, rfl⟩ := List.mem_map.mp hnode
    have hid : overload.node.id = name := hproper.filed overload hkept
    obtain ⟨site, hsite, owner, howner, hstands, hvalue⟩ := (horigin overload hkept).owner hnames
    exact ⟨hid, hstands.named.trans hid, ⟨site, hsite, owner, howner, hid ▸ hstands.within, hvalue⟩,
      horigin overload hkept⟩

end AmbientCatalog
