import AmbientCatalog.Proofs.Walk

/-!
# What the index records

The index of a corpus is made in one pass over its sites. Each table of the index is the list of
what the sites say: the recorded type names, the typed variables, the interfaces and those of them
that can construct. Later modules ask the index nothing that does not follow from this.
-/

set_option autoImplicit false

namespace AmbientCatalog

namespace Index

def addSite (file : Nat) (index : Index) (site : Site) : Index :=
  match site.decl? with
  | some (.functionDecl decl) => index.addFunction site.scope decl
  | some (.variableDecl decl) => decl.declarators.foldl (addDeclarator site.scope) index
  | some (.interfaceDecl decl) => index.addInterface file site.scope decl
  | some (.namespaceDecl _ parts _) =>
    index.addContainer (Nesting.joined site.scope parts) file .namespaceBlock
  | _ => index

mutual
theorem addDecl_sites (file : Nat) (specifier scope : String) (start : Position) (index : Index) :
    ∀ decl : Decl, index.addDecl file scope decl =
      (decl.sites .joined specifier scope start).foldl (addSite file) index
  | .functionDecl _ => rfl
  | .variableDecl _ => rfl
  | .interfaceDecl _ => rfl
  | .namespaceDecl isDeclared parts items => by
    rw [addDecl, Decl.sites, List.foldl_cons, addItems_sites file specifier]
    rfl
  | .globalBlock items => by
    rw [addDecl, Decl.sites, addItems_sites file specifier]
  | .classDecl _ => rfl
  | .outsideModule => rfl
  | .aliasDecl _ _ => rfl
  | .enumDecl => rfl
  | .usingDecl => rfl

theorem addContent_sites (file : Nat) (specifier scope : String) (start : Position)
    (index : Index) : ∀ content : Content, index.addContent file scope content =
      (content.sites .joined specifier scope start).foldl (addSite file) index
  | .plain decl => by rw [addContent, Content.sites, addDecl_sites file specifier scope start]
  | .exported decl => by rw [addContent, Content.sites, addDecl_sites file specifier scope start]
  | .empty => rfl
  | .other => rfl

theorem addItem_sites (file : Nat) (specifier scope : String) (index : Index) :
    ∀ item : Item, index.addItem file scope item =
      (item.sites .joined specifier scope).foldl (addSite file) index
  | .mk start content => by rw [addItem, Item.sites, addContent_sites file specifier scope start]

/-- The index records the sites of a list of statements one after the other. -/
theorem addItems_sites (file : Nat) (specifier scope : String) (index : Index) :
    ∀ items : List Item, index.addItems file scope items =
      (sitesOf .joined specifier scope items).foldl (addSite file) index
  | [] => rfl
  | item :: items => by
    rw [addItems, sitesOf, List.foldl_append, addItem_sites file specifier,
      addItems_sites file specifier]
end

theorem foldl_addDeclarator (scope : String) (declarators : List Declarator) (index : Index) :
    declarators.foldl (addDeclarator scope) index =
      { index with
        declaredTypes := ((declarators.filterMap (Declarator.typed? scope)).map
          (fun typed => (typed.1, typed.2.recordedName))).reverse ++ index.declaredTypes
        typedNames := ((declarators.filterMap (Declarator.typed? scope)).filterMap
          (fun typed => typed.2.simpleName?.map
            (fun typeName => (Name.qualify typeName scope, typed.1)))).reverse
              ++ index.typedNames } := by
  induction declarators generalizing index with
  | nil => rfl
  | cons declarator declarators ih =>
    rw [List.foldl_cons, ih]
    cases declarator with
    | destructured => rfl
    | ident name type =>
      cases type with
      | none => rfl
      | some type =>
        cases ht : type.simpleName? <;>
          simp [addDeclarator, Declarator.typed?, TypeExpr.recordedName, ht]

structure IsOf (index : Index) (sites : List Site) : Prop where
  declared : index.declaredTypes = (sites.flatMap Site.annotations).reverse
  typed : index.typedNames = (sites.flatMap Site.typings).reverse
  constructs : ∀ name, index.isConstructorType name = true ↔
    ∃ decl, (name, decl) ∈ sites.flatMap Site.interfaces ∧
      decl.members.any Member.isConstruct = true
  interfaces : ∀ name, index.interfaces name =
    ((sites.flatMap Site.interfaces).filter (fun declared => declared.1 = name)).map Prod.snd

theorem interfaces_addContainer (index : Index) (entry : String) (file : Nat)
    (container : Container) (name : String) :
    (index.addContainer entry file container).interfaces name = index.interfaces name ++
      (if entry = name then (ContainerEntry.interface? ⟨entry, file, container⟩).toList
        else []) := by
  by_cases h : entry = name
  · cases container <;>
      simp [addContainer, interfaces, interfaceEntries, containersOf, h, ContainerEntry.interface?]
  · simp [addContainer, interfaces, interfaceEntries, containersOf, h]

theorem addSite_declaredTypes (file : Nat) (index : Index) (site : Site) :
    (index.addSite file site).declaredTypes = site.annotations.reverse ++ index.declaredTypes := by
  obtain ⟨specifier, scope, start, decl?⟩ := site
  cases decl? with
  | none => rfl
  | some decl =>
    cases decl with
    | functionDecl decl =>
      cases hr : decl.signature.result <;>
        simp [addSite, addFunction, Site.annotations, Site.typedFunctions, Site.typedVariables,
          TypeExpr.recordedName, hr]
    | variableDecl decl =>
      simp [addSite, foldl_addDeclarator, Site.annotations, Site.typedFunctions,
        Site.typedVariables]
    | interfaceDecl decl =>
      simp only [addSite, addInterface, addContainer]
      split_ifs <;> rfl
    | _ => rfl

theorem addSite_typedNames (file : Nat) (index : Index) (site : Site) :
    (index.addSite file site).typedNames = site.typings.reverse ++ index.typedNames := by
  obtain ⟨specifier, scope, start, decl?⟩ := site
  cases decl? with
  | none => rfl
  | some decl =>
    cases decl with
    | functionDecl decl =>
      cases hr : decl.signature.result <;>
        simp [addSite, addFunction, Site.typings, Site.typedVariables, hr]
    | variableDecl decl => simp [addSite, foldl_addDeclarator, Site.typings, Site.typedVariables]
    | interfaceDecl decl =>
      simp only [addSite, addInterface, addContainer]
      split_ifs <;> rfl
    | _ => rfl

theorem addSite_constructorTypes (file : Nat) (index : Index) (site : Site) :
    (index.addSite file site).constructorTypes =
      (site.interfaces.filter (fun declared => declared.2.members.any Member.isConstruct)).map
        Prod.fst ++ index.constructorTypes := by
  obtain ⟨specifier, scope, start, decl?⟩ := site
  cases decl? with
  | none => rfl
  | some decl =>
    cases decl with
    | functionDecl decl =>
      cases hr : decl.signature.result <;> simp [addSite, addFunction, Site.interfaces, hr]
    | variableDecl decl => simp [addSite, foldl_addDeclarator, Site.interfaces]
    | interfaceDecl decl =>
      simp only [addSite, addInterface, addContainer, Site.interfaces]
      split_ifs with h <;> simp [h]
    | _ => rfl

theorem addSite_interfaces (file : Nat) (index : Index) (site : Site) (name : String) :
    (index.addSite file site).interfaces name = index.interfaces name ++
      (site.interfaces.filter (fun declared => declared.1 = name)).map Prod.snd := by
  obtain ⟨specifier, scope, start, decl?⟩ := site
  cases decl? with
  | none => simp [addSite, Site.interfaces]
  | some decl =>
    cases decl with
    | functionDecl decl =>
      cases hr : decl.signature.result <;>
        simp [addSite, addFunction, Site.interfaces, hr, interfaces, interfaceEntries, containersOf]
    | variableDecl decl =>
      simp [addSite, foldl_addDeclarator, Site.interfaces, interfaces, interfaceEntries,
        containersOf]
    | interfaceDecl decl =>
      simp only [addSite, addInterface, interfaces_addContainer, Site.interfaces]
      split_ifs <;> simp_all [interfaces, interfaceEntries, containersOf, ContainerEntry.interface?]
    | namespaceDecl isDeclared parts items =>
      simp [addSite, interfaces_addContainer, Site.interfaces, ContainerEntry.interface?]
    | _ => simp [addSite, Site.interfaces]

theorem IsOf.addSite {index : Index} {sites : List Site} (h : index.IsOf sites) (file : Nat)
    (site : Site) : (index.addSite file site).IsOf (sites ++ [site]) where
  declared := by simp [addSite_declaredTypes, h.declared]
  typed := by simp [addSite_typedNames, h.typed]
  constructs := by
    intro name
    have hold := h.constructs name
    simp only [isConstructorType, List.contains_iff_mem] at hold ⊢
    rw [addSite_constructorTypes, List.mem_append, hold, List.flatMap_append,
      List.flatMap_singleton]
    simp only [List.mem_append, List.mem_map, List.mem_filter]
    constructor
    · rintro (⟨⟨_, decl⟩, ⟨hmem, hany⟩, rfl⟩ | ⟨decl, hmem, hany⟩)
      · exact ⟨decl, .inr hmem, hany⟩
      · exact ⟨decl, .inl hmem, hany⟩
    · rintro ⟨decl, hmem | hmem, hany⟩
      · exact .inr ⟨decl, hmem, hany⟩
      · exact .inl ⟨(name, decl), ⟨hmem, hany⟩, rfl⟩
  interfaces := by
    intro name
    simp [addSite_interfaces, h.interfaces name]

theorem IsOf.addSites {index : Index} {sites : List Site} (h : index.IsOf sites) (file : Nat)
    (more : List Site) : (more.foldl (Index.addSite file) index).IsOf (sites ++ more) := by
  induction more generalizing index sites with
  | nil => simpa using h
  | cons site more ih => simpa using ih (h.addSite file site)

theorem IsOf.addFiles {index : Index} {sites : List Site} (h : index.IsOf sites)
    (files : List SourceFile) :
    (files.foldl (fun index file => index.addItems file.id "" file.items) index).IsOf
      (sites ++ fileSites .joined files) := by
  induction files generalizing index sites with
  | nil => simpa [fileSites] using h
  | cons file files ih =>
    rw [List.foldl_cons, Index.addItems_sites file.id file.specifier]
    simpa [fileSites] using
      ih (h.addSites file.id (sitesOf .joined file.specifier "" file.items))

theorem IsOf.empty : Index.IsOf {} [] where
  declared := rfl
  typed := rfl
  constructs := by simp [Index.isConstructorType]
  interfaces := fun _ => rfl

theorem IsOf.mem_interfaces {index : Index} {sites : List Site} (h : index.IsOf sites)
    {name : String} {decl : InterfaceDecl} :
    decl ∈ index.interfaces name ↔ (name, decl) ∈ sites.flatMap Site.interfaces := by
  rw [h.interfaces]
  simp

theorem IsOf.hasInterface_iff {index : Index} {sites : List Site} (h : index.IsOf sites)
    {name : String} :
    index.hasInterface name = true ↔ ∃ decl, (name, decl) ∈ sites.flatMap Site.interfaces := by
  simp only [hasInterface, Bool.not_eq_true', List.isEmpty_eq_false_iff_exists_mem,
    h.mem_interfaces]

theorem mem_of_lookup {table : List (String × String)} {key value : String}
    (h : table.lookup key = some value) : (key, value) ∈ table := by
  obtain ⟨before, after, hsplit, -⟩ := List.lookup_eq_some_iff.mp h
  rw [hsplit]
  simp

theorem IsOf.annotation_of_typeOf {index : Index} {sites : List Site} (h : index.IsOf sites)
    {name typeName : String} (ht : index.typeOf name = some typeName) :
    (name, typeName) ∈ sites.flatMap Site.annotations := by
  rw [typeOf, h.declared] at ht
  exact List.mem_reverse.mp (mem_of_lookup ht)

theorem IsOf.typing_of_nameOfType {index : Index} {sites : List Site} (h : index.IsOf sites)
    {interface binding : String} (hn : index.nameOfType interface = some binding) :
    ∃ site ∈ sites, ∃ type typeName, (binding, type) ∈ site.typedVariables ∧
      type.simpleName? = some typeName ∧ interface = Name.qualify typeName site.scope := by
  rw [nameOfType, h.typed] at hn
  have hmem := List.mem_reverse.mp (mem_of_lookup hn)
  obtain ⟨site, hsite, hin⟩ := List.mem_flatMap.mp hmem
  simp only [Site.typings, List.mem_filterMap, Option.map_eq_some_iff, Prod.mk.injEq] at hin
  obtain ⟨⟨_, type⟩, htyped, typeName, hname, rfl, rfl⟩ := hin
  exact ⟨site, hsite, type, typeName, htyped, hname, rfl⟩

theorem lookup_ne_none {index : Index} {name : String} (h : index.hasInterface name = true)
    (scope : String) : index.lookup name scope ≠ none := by
  intro hnone
  have hmem : Name.qualify name "" ∈ (Name.enclosing scope).map (Name.qualify name) :=
    List.mem_map_of_mem (Name.outermost_mem_enclosing scope)
  exact List.find?_eq_none.mp hnone _ hmem (by simpa using h)

theorem lookup_innermost {index : Index} {name scope : String}
    (h : index.hasInterface (Name.qualify name scope) = true) :
    index.lookup name scope = some (Name.qualify name scope) := by
  by_cases hs : scope = ""
  · subst hs
    simp_all [lookup, Name.enclosing]
  · rw [lookup, Name.enclosing, if_neg hs, List.map_cons, List.find?_cons_of_pos h]

end Index

/-- The index of a corpus is read off its sites. -/
theorem Corpus.index_isOf (corpus : Corpus) :
    corpus.index.IsOf (fileSites .stepwise corpus.files) :=
  fileSites_joined corpus.files ▸ Index.IsOf.empty.addFiles corpus.files

theorem Corpus.hasInterface_empty (corpus : Corpus) : corpus.index.hasInterface "" = false := by
  by_contra h
  obtain ⟨decl, hmem⟩ := corpus.index_isOf.hasInterface_iff.mp (by simpa using h)
  obtain ⟨site, -, hident, hname⟩ := (wellNamed_fileSites corpus.files).interface hmem
  exact Name.qualify_ne_empty hident.1 _ hname.symm

end AmbientCatalog
