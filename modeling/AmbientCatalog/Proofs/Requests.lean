import AmbientCatalog.Proofs.Outcome

/-!
# What a corpus asks for

A typed variable asks for interfaces, each in a role; the statement of an interface asks for it
again, in its role for the variable it is about. These are all requests of a plan, and all of them
are for variables with a name, so every plan succeeds and a catalog can be read off it.
-/

set_option autoImplicit false

namespace AmbientCatalog

def TypeExpr.isKeyword : TypeExpr → Bool
  | .keyword _ => true
  | _ => false

namespace Setting

/-- An interface that a typed variable asks for, with the role: the one with its name, the one that
is its type, or one that its type constructs. -/
inductive Asks (s : Setting) (binding scope : String) (type : TypeExpr) : String → Role → Prop
  | own {role : Role} (hi : s.index.hasInterface binding = true)
      (hr : s.roleOf binding binding type.simpleName? = some role) :
      Asks s binding scope type binding role
  | typed {name interface : String} {role : Role} (ht : type.simpleName? = some name)
      (hl : s.index.lookup name scope = some interface) (hne : interface ≠ binding)
      (hr : s.roleOf interface binding (some name) = some role) :
      Asks s binding scope type interface role
  | built {name interface result : String} (ht : type.simpleName? = some name)
      (hl : s.index.lookup name scope = some interface)
      (hown : s.index.hasInterface binding = false)
      (hc : s.index.isConstructorType interface = true) (hmem : result ∈ s.constructed interface)
      (hne : result ≠ binding) : Asks s binding scope type result .instanceSide

theorem mem_requestIn {interface interface' binding binding' : String} {role : Role}
    {role? : Option Role} :
    .request interface' role binding' ∈ requestIn interface role? binding ↔
      interface' = interface ∧ binding' = binding ∧ role? = some role := by
  cases role? with
  | none => simp [requestIn]
  | some found => simp [requestIn, and_comm, eq_comm]

theorem mem_ownSteps (s : Setting) {binding : String} {type : Option String}
    {interface binding' : String} {role : Role} :
    .request interface role binding' ∈ s.ownSteps binding type ↔
      interface = binding ∧ binding' = binding ∧ s.index.hasInterface binding = true ∧
        s.roleOf binding binding type = some role := by
  unfold ownSteps
  split_ifs with h
  · simp [mem_requestIn, h]
  · simp [h]

theorem mem_typeSteps (s : Setting) {binding interface : String} {type : Option String}
    {interface' binding' : String} {role : Role} :
    .request interface' role binding' ∈ s.typeSteps binding interface type ↔
      interface' = interface ∧ binding' = binding ∧ interface ≠ binding ∧
        s.roleOf interface binding type = some role := by
  unfold typeSteps
  split_ifs with h
  · simp [mem_requestIn, h]
  · simp [h]

theorem mem_instanceSteps (s : Setting) {binding interface : String}
    {interface' binding' : String} {role : Role} :
    .request interface' role binding' ∈ s.instanceSteps binding interface ↔
      binding' = binding ∧ role = .instanceSide ∧ s.index.hasInterface binding = false ∧
        s.index.isConstructorType interface = true ∧ interface' ∈ s.constructed interface ∧
        interface' ≠ binding := by
  unfold instanceSteps
  split_ifs with h
  · obtain ⟨hown, hc⟩ : s.index.hasInterface binding = false ∧
      s.index.isConstructorType interface = true := by simpa using h
    simp only [List.mem_map, List.mem_filter, Step.request.injEq, hown, hc]
    constructor
    · rintro ⟨found, ⟨hmem, hne⟩, rfl, rfl, rfl⟩
      exact ⟨rfl, rfl, trivial, trivial, hmem, by simpa using hne⟩
    · rintro ⟨rfl, rfl, -, -, hmem, hne⟩
      exact ⟨interface', ⟨hmem, by simpa using hne⟩, rfl, rfl, rfl⟩
  · simp only [List.not_mem_nil, false_iff]
    rintro ⟨-, -, hown, hc, -, -⟩
    simp [hown, hc] at h

/-- The requests that a typed variable makes. -/
theorem mem_describedSteps (s : Setting) {binding scope : String} {type : TypeExpr}
    {interface binding' : String} {role : Role} :
    .request interface role binding' ∈ s.describedSteps binding scope (some type) ↔
      binding' = binding ∧ type.isKeyword = false ∧
        s.Asks binding scope type interface role := by
  have hinline : ∀ type, .request interface role binding' ∉ inlineSteps binding type := by
    intro type
    cases type <;> simp [inlineSteps]
  have hnamed : .request interface role binding' ∈ s.namedSteps binding scope type.simpleName? ↔
      ∃ name found, type.simpleName? = some name ∧ s.index.lookup name scope = some found ∧
        .request interface role binding' ∈
          s.typeSteps binding found (some name) ++ s.instanceSteps binding found := by
    unfold namedSteps
    cases ht : type.simpleName? with
    | none => simp
    | some name => cases hl : s.index.lookup name scope <;> simp [hl]
  by_cases hk : type.isKeyword = true
  · cases type <;> simp [TypeExpr.isKeyword, describedSteps] at hk ⊢
  have hsteps : s.describedSteps binding scope (some type) = s.ownSteps binding type.simpleName? ++
      s.namedSteps binding scope type.simpleName? ++ inlineSteps binding type := by
    cases type <;> first | rfl | simp [TypeExpr.isKeyword] at hk
  simp only [hsteps, List.mem_append, hinline, or_false, mem_ownSteps, hnamed, mem_typeSteps,
    mem_instanceSteps]
  constructor
  · rintro (⟨rfl, rfl, hi, hr⟩ | ⟨name, found, ht, hl, ⟨rfl, rfl, hne, hr⟩ |
      ⟨rfl, rfl, hown, hc, hmem, hne⟩⟩)
    · exact ⟨rfl, by simpa using hk, .own hi hr⟩
    · exact ⟨rfl, by simpa using hk, .typed ht hl hne hr⟩
    · exact ⟨rfl, by simpa using hk, .built ht hl hown hc hmem hne⟩
  · rintro ⟨rfl, -, hasks⟩
    cases hasks with
    | own hi hr => exact .inl ⟨rfl, rfl, hi, hr⟩
    | typed ht hl hne hr => exact .inr ⟨_, _, ht, hl, .inl ⟨rfl, rfl, hne, hr⟩⟩
    | built ht hl hown hc hmem hne =>
      exact .inr ⟨_, _, ht, hl, .inr ⟨rfl, rfl, hown, hc, hmem, hne⟩⟩

end Setting

/-- The interface is about the variable: it has the variable's name, or else it is the type with
which the variable was declared, and no later one. -/
def Index.Concerns (index : Index) (interface binding : String) : Prop :=
  (binding = interface ∧ index.isKnown interface = true) ∨
    (index.typeOf interface = none ∧ index.nameOfType interface = some binding)

theorem Index.bindingOf_eq_some {index : Index} {interface : String} {about : Binding} :
    index.bindingOf interface = some about ↔
      index.Concerns interface about.name ∧ about.typeName = index.typeOf about.name := by
  obtain ⟨name, typeName⟩ := about
  unfold bindingOf Concerns isKnown
  cases ht : index.typeOf interface with
  | some found =>
    simp only [Option.some.injEq, Binding.mk.injEq, Option.isSome_some, reduceCtorEq, false_and,
      or_false, and_true]
    constructor
    · rintro ⟨rfl, rfl⟩
      exact ⟨rfl, ht.symm⟩
    · rintro ⟨rfl, rfl⟩
      exact ⟨rfl, ht.symm⟩
  | none =>
    simp only [Option.map_eq_some_iff, Binding.mk.injEq, Option.isSome_none, Bool.false_eq_true,
      and_false, true_and, false_or]
    constructor
    · rintro ⟨found, hfound, rfl, rfl⟩
      exact ⟨hfound, rfl⟩
    · rintro ⟨hfound, rfl⟩
      exact ⟨name, hfound, rfl, rfl⟩

namespace Setting

theorem mem_interfaceSteps (s : Setting) {scope : String} {decl : InterfaceDecl}
    {interface binding : String} {role : Role} :
    .request interface role binding ∈ s.interfaceSteps scope decl ↔
      interface = Name.qualify decl.name scope ∧ s.index.Concerns interface binding ∧
        s.roleOf interface binding (s.index.typeOf binding) = some role := by
  have hsteps : .request interface role binding ∈ s.interfaceSteps scope decl ↔
      interface = Name.qualify decl.name scope ∧ ∃ about, s.index.bindingOf interface = some about ∧
        about.name = binding ∧ s.roleOf interface binding about.typeName = some role := by
    dsimp only [interfaceSteps]
    cases hb : s.index.bindingOf (Name.qualify decl.name scope) with
    | none =>
      simp only [List.not_mem_nil, false_iff]
      rintro ⟨rfl, about, habout, -⟩
      exact absurd (hb.symm.trans habout) (by simp)
    | some about =>
      dsimp only
      cases hr : s.roleOf (Name.qualify decl.name scope) about.name about.typeName with
      | none =>
        simp only [List.mem_singleton, reduceCtorEq, false_iff]
        rintro ⟨rfl, other, hother, rfl, hrole⟩
        obtain rfl := Option.some.inj (hb.symm.trans hother)
        exact absurd (hr.symm.trans hrole) (by simp)
      | some found =>
        simp only [List.mem_singleton, Step.request.injEq]
        constructor
        · rintro ⟨rfl, rfl, rfl⟩
          exact ⟨rfl, about, hb, rfl, hr⟩
        · rintro ⟨rfl, other, hother, rfl, hrole⟩
          obtain rfl := Option.some.inj (hb.symm.trans hother)
          exact ⟨rfl, Option.some.inj (hrole.symm.trans hr), rfl⟩
  rw [hsteps]
  refine and_congr_right fun _ => ⟨?_, ?_⟩
  · rintro ⟨about, hb, rfl, hr⟩
    obtain ⟨hc, ht⟩ := Index.bindingOf_eq_some.mp hb
    exact ⟨hc, ht ▸ hr⟩
  · rintro ⟨hc, hr⟩
    exact ⟨⟨binding, s.index.typeOf binding⟩, Index.bindingOf_eq_some.mpr ⟨hc, rfl⟩, rfl, hr⟩

theorem mem_variableSteps (s : Setting) {scope : String} {decl : VariableDecl}
    {declarator : Declarator} {interface binding : String} {role : Role} :
    .request interface role binding ∈ s.variableSteps scope decl declarator ↔
      ∃ type, declarator.typed? scope = some (binding, type) ∧ type.isKeyword = false ∧
        s.Asks binding scope type interface role := by
  cases declarator with
  | destructured => simp [variableSteps, Declarator.typed?]
  | ident name type? =>
    have hnode : .request interface role binding ∉
        (if s.isDescribed (Name.qualify name scope) scope type? then []
        else [Step.node (variableNode decl (Name.qualify name scope) type?)]) := by
      split_ifs <;> simp
    rw [variableSteps, List.mem_append, or_iff_left hnode]
    cases type? with
    | none => simp [describedSteps, Declarator.typed?]
    | some type =>
      simp only [mem_describedSteps, Declarator.typed?, Option.some.injEq, Prod.mk.injEq]
      constructor
      · rintro ⟨rfl, hk, hasks⟩
        exact ⟨type, ⟨rfl, rfl⟩, hk, hasks⟩
      · rintro ⟨_, ⟨rfl, rfl⟩, hk, hasks⟩
        exact ⟨rfl, hk, hasks⟩

theorem mem_stepsAt (s : Setting) {site : Site} {interface binding : String} {role : Role} :
    .request interface role binding ∈ s.stepsAt site ↔
      (∃ type, (binding, type) ∈ site.typedVariables ∧ type.isKeyword = false ∧
        s.Asks binding site.scope type interface role) ∨
      ((∃ decl, (interface, decl) ∈ site.interfaces) ∧ s.index.Concerns interface binding ∧
        s.roleOf interface binding (s.index.typeOf binding) = some role) := by
  obtain ⟨specifier, scope, start, decl?⟩ := site
  cases decl? with
  | none => simp [stepsAt, Site.typedVariables, Site.interfaces]
  | some declared =>
    cases declared with
    | variableDecl decl =>
      simp only [stepsAt, List.mem_flatMap, mem_variableSteps, Site.typedVariables,
        List.mem_filterMap, Site.interfaces, List.not_mem_nil, exists_false, false_and, or_false]
      constructor
      · rintro ⟨declarator, hmem, type, ht, hk, hasks⟩
        exact ⟨type, ⟨declarator, hmem, ht⟩, hk, hasks⟩
      · rintro ⟨type, ⟨declarator, hmem, ht⟩, hk, hasks⟩
        exact ⟨declarator, hmem, type, ht, hk, hasks⟩
    | interfaceDecl decl =>
      simp [stepsAt, mem_interfaceSteps, Site.typedVariables, Site.interfaces]
    | namespaceDecl isDeclared parts items =>
      simp only [stepsAt, Site.typedVariables, Site.interfaces]
      split_ifs <;> simp
    | _ => simp [stepsAt, Site.typedVariables, Site.interfaces]

def held (steps : List Step) : List Step := steps.filter (fun step => !step.isRequest)

theorem held_flatMap {α : Type} (places : List α) (plan : α → List Step) :
    held (places.flatMap plan) = places.flatMap (fun place => held (plan place)) :=
  List.filter_flatMap

theorem held_requestIn (interface : String) (role? : Option Role) (binding : String) :
    held (requestIn interface role? binding) = [] := by
  cases role? with
  | none => rfl
  | some role => rfl

theorem held_ownSteps (s : Setting) (binding : String) (type : Option String) :
    held (s.ownSteps binding type) = [] := by
  unfold ownSteps
  split_ifs
  · exact held_requestIn _ _ _
  · rfl

theorem held_namedSteps (s : Setting) (binding scope : String) (type : Option String) :
    held (s.namedSteps binding scope type) = [] := by
  unfold namedSteps
  split
  · next interface _ =>
    have htyped : held (s.typeSteps binding interface type) = [] := by
      unfold typeSteps
      split_ifs
      · exact held_requestIn _ _ _
      · rfl
    have hbuilt : held (s.instanceSteps binding interface) = [] := by
      unfold instanceSteps
      split_ifs
      · rw [held, List.filter_map]
        exact List.map_eq_nil_iff.mpr (List.filter_eq_nil_iff.mpr (by simp [Step.isRequest]))
      · rfl
    rw [held, List.filter_append, ← held, ← held, htyped, hbuilt, List.append_nil]
  · rfl

theorem held_describedSteps (s : Setting) (binding scope : String) (type? : Option TypeExpr) :
    held (s.describedSteps binding scope type?) = type?.toList.flatMap (inlineSteps binding) := by
  have hinline : ∀ type, held (inlineSteps binding type) = inlineSteps binding type := by
    intro type
    cases type <;> rfl
  have hsome : ∀ type : TypeExpr, held (s.ownSteps binding type.simpleName? ++
      s.namedSteps binding scope type.simpleName? ++ inlineSteps binding type) =
      inlineSteps binding type := by
    intro type
    have hown := s.held_ownSteps binding type.simpleName?
    have hnamed := s.held_namedSteps binding scope type.simpleName?
    have hrest := hinline type
    simp only [held] at hown hnamed hrest
    rw [held, List.filter_append, List.filter_append, hown, hnamed, hrest]
    rfl
  cases type? with
  | none => rfl
  | some type =>
    rw [Option.toList_some, List.flatMap_singleton]
    cases type with
    | keyword word => rfl
    | _ => exact hsome _

theorem held_variableSteps (s : Setting) (scope : String) (decl : VariableDecl) (name : String)
    (type? : Option TypeExpr) :
    held (s.variableSteps scope decl (.ident name type?)) =
      type?.toList.flatMap (inlineSteps (Name.qualify name scope)) ++
        (if s.isDescribed (Name.qualify name scope) scope type? then []
        else [.node (variableNode decl (Name.qualify name scope) type?)]) := by
  rw [variableSteps, held, List.filter_append, ← held, ← held, held_describedSteps]
  split_ifs <;> rfl

theorem inline_mem_variableSteps (s : Setting) {scope : String} {decl : VariableDecl}
    {declarator : Declarator} {binding : String} {members : List Member}
    (h : .inline binding members ∈ s.variableSteps scope decl declarator) :
    ∃ type, declarator.typed? scope = some (binding, type) := by
  cases declarator with
  | destructured => simp [variableSteps] at h
  | ident name type? =>
    have hheld : .inline binding members ∈ held (s.variableSteps scope decl (.ident name type?)) :=
      List.mem_filter.mpr ⟨h, rfl⟩
    rw [held_variableSteps, List.mem_append] at hheld
    rcases hheld with hin | hnode
    · cases type? with
      | none => simp at hin
      | some type =>
        refine ⟨type, ?_⟩
        cases type <;> simp_all [inlineSteps, Declarator.typed?]
    · split_ifs at hnode <;> simp at hnode

theorem inline_mem_stepsAt (s : Setting) {site : Site} {binding : String} {members : List Member}
    (h : .inline binding members ∈ s.stepsAt site) :
    ∃ type, (binding, type) ∈ site.typedVariables := by
  obtain ⟨specifier, scope, start, decl?⟩ := site
  cases decl? with
  | none => simp [stepsAt] at h
  | some declared =>
    cases declared with
    | variableDecl decl =>
      obtain ⟨declarator, hmem, hin⟩ := List.mem_flatMap.mp h
      obtain ⟨type, htyped⟩ := s.inline_mem_variableSteps hin
      exact ⟨type, List.mem_filterMap.mpr ⟨declarator, hmem, htyped⟩⟩
    | interfaceDecl decl =>
      dsimp only [stepsAt, interfaceSteps] at h
      split at h
      · simp at h
      · split at h <;> simp at h
    | namespaceDecl isDeclared parts items =>
      dsimp only [stepsAt] at h
      split_ifs at h <;> simp at h
    | _ => simp [stepsAt] at h

end Setting

theorem Index.Concerns.ne_empty {index : Index} {sites : List Site} (hindex : index.IsOf sites)
    (hnames : WellNamed sites) {interface binding : String} (hi : interface ≠ "")
    (h : index.Concerns interface binding) : binding ≠ "" := by
  rcases h with ⟨rfl, -⟩ | ⟨-, hname⟩
  · exact hi
  · obtain ⟨site, hsite, type, typeName, htyped, -, -⟩ := hindex.typing_of_nameOfType hname
    obtain ⟨name, hident, rfl⟩ := hnames.typedVariable hsite htyped
    exact Name.qualify_ne_empty hident.1 _

namespace Setting

variable {s : Setting} {sites : List Site}

theorem stepsAt_named (hindex : s.index.IsOf sites) (hnames : WellNamed sites) :
    ∀ step ∈ sites.flatMap s.stepsAt, step.Named := by
  intro step hstep
  obtain ⟨site, hsite, hmem⟩ := List.mem_flatMap.mp hstep
  have hvariable : ∀ binding type, (binding, type) ∈ site.typedVariables → binding ≠ "" := by
    intro binding type htyped
    obtain ⟨name, hident, rfl⟩ := hnames.typedVariable hsite htyped
    exact Name.qualify_ne_empty hident.1 _
  cases step with
  | node emitted => trivial
  | inline binding members =>
    obtain ⟨type, htyped⟩ := s.inline_mem_stepsAt hmem
    exact hvariable binding type htyped
  | request interface role binding =>
    rcases s.mem_stepsAt.mp hmem with ⟨type, htyped, -, -⟩ | ⟨⟨decl, hdecl⟩, hconcerns, -⟩
    · exact hvariable binding type htyped
    · obtain ⟨_, -, hident, rfl⟩ := hnames.interface (List.mem_flatMap.mpr ⟨site, hsite, hdecl⟩)
      exact hconcerns.ne_empty hindex hnames (Name.qualify_ne_empty hident.1 _)

end Setting

namespace Catalog

def recordsOf (catalog : Catalog) (name : String) : List Record :=
  (catalog.registry.overloads name).map Node.record

structure IsOf (catalog : Catalog) (s : Setting) (sites : List Site) : Prop where
  names : ∀ name, name ∈ catalog.registry.names ↔
    ∃ node, s.Emits [] (sites.flatMap s.stepsAt) node ∧ node.isPlaceholder = false ∧ node.id = name
  records : ∀ name record, record ∈ catalog.recordsOf name ↔
    ∃ node, s.Emits [] (sites.flatMap s.stepsAt) node ∧ node.isPlaceholder = false ∧
      node.id = name ∧ node.record = record
  diagnostics : catalog.diagnostics = sites.flatMap Site.diagnostics

/-- A catalog is always built, from a run of its plan and the nodes that it emits. -/
theorem build_run (corpus : Corpus) (options : Options) :
    ∃ nodes done,
      (corpus.setting options).performAll ((fileSites .stepwise corpus.files).flatMap
        (corpus.setting options).stepsAt) [] = .ok (nodes, done) ∧
      build corpus options = .ok ⟨Registry.empty.saveAll nodes,
        (fileSites .stepwise corpus.files).flatMap Site.diagnostics⟩ ∧
      ∀ node, node ∈ nodes ↔ (corpus.setting options).Emits []
        ((fileSites .stepwise corpus.files).flatMap (corpus.setting options).stepsAt)
        node := by
  have hindex : (corpus.setting options).index.IsOf (fileSites .stepwise corpus.files) :=
    corpus.index_isOf
  obtain ⟨nodes, done, hrun, hmem⟩ := (corpus.setting options).performAll_emits
    corpus.hasInterface_empty (Setting.stepsAt_named hindex (wellNamed_fileSites corpus.files)) []
  exact ⟨nodes, done, hrun, by rw [build_eq, hrun]; rfl, hmem⟩

/-- A catalog holds what its sites emit. -/
theorem build_isOf (corpus : Corpus) (options : Options) :
    ∃ catalog, build corpus options = .ok catalog ∧
      catalog.IsOf (corpus.setting options) (fileSites .stepwise corpus.files) := by
  obtain ⟨nodes, -, -, hbuild, hmem⟩ := build_run corpus options
  refine ⟨_, hbuild, fun name => ?_, fun name record => ?_, rfl⟩
  · rw [Registry.mem_names_saveAll]
    simp [hmem, Registry.empty, Registry.names]
  · rw [recordsOf, Registry.mem_records_saveAll]
    simp [hmem]

end Catalog

end AmbientCatalog
