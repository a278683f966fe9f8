import AmbientCatalog.Proofs.Passes

/-!
# The index against the flattened corpus

A flattened corpus is one list of named declarations in document order: namespaces have gone into
the names, the content of global blocks stands where the block stood, `export` is off, and a
variable statement is one declaration for each of its variables. All that an index answers can be
read off this list. The type of a name is the one recorded for its last annotated declaration, the
variable of a type is the last one declared with it, and the interfaces of a name are all its
interface declarations in order.
-/

set_option autoImplicit false

namespace AmbientCatalog

inductive FlatForm where
  | declarator (type : Option TypeExpr)
  | functionDecl (decl : FunctionDecl)
  | interfaceDecl (decl : InterfaceDecl)
  | classDecl (decl : ClassDecl)
  | namespaceDecl
  | aliasDecl (type : TypeExpr)

structure FlatDecl where
  file : Nat
  scope : String
  name : String
  form : FlatForm

def Declarator.flattened (file : Nat) (scope : String) : Declarator → Option FlatDecl
  | .ident name type => some ⟨file, scope, Name.qualify name scope, .declarator type⟩
  | .destructured => none

def Site.flattened (file : Nat) (site : Site) : List FlatDecl :=
  match site.decl? with
  | some (.functionDecl decl) =>
    [⟨file, site.scope, Name.qualify decl.name site.scope, .functionDecl decl⟩]
  | some (.variableDecl decl) => decl.declarators.filterMap (Declarator.flattened file site.scope)
  | some (.interfaceDecl decl) =>
    [⟨file, site.scope, Name.qualify decl.name site.scope, .interfaceDecl decl⟩]
  | some (.classDecl decl) =>
    [⟨file, site.scope, Name.qualify decl.name site.scope, .classDecl decl⟩]
  | some (.namespaceDecl _ parts _) =>
    [⟨file, site.scope, Nesting.stepwise site.scope parts, .namespaceDecl⟩]
  | some (.aliasDecl name type) =>
    [⟨file, site.scope, Name.qualify name site.scope, .aliasDecl type⟩]
  | _ => []

def flattened (files : List SourceFile) : List FlatDecl :=
  files.flatMap (fun file =>
    (sitesOf .stepwise file.specifier "" file.items).flatMap (Site.flattened file.id))

theorem flattened_cons (file : SourceFile) (files : List SourceFile) :
    flattened (file :: files) =
      (sitesOf .stepwise file.specifier "" file.items).flatMap (Site.flattened file.id) ++
        flattened files :=
  rfl

namespace FlatDecl

def type? (flat : FlatDecl) : Option TypeExpr :=
  match flat.form with
  | .declarator type => type
  | .functionDecl decl => decl.signature.result
  | _ => none

def typeName? (flat : FlatDecl) : Option String := flat.type?.map TypeExpr.recordedName

def typing? (flat : FlatDecl) : Option String :=
  match flat.form with
  | .declarator (some type) =>
    type.simpleName?.map (fun typeName => Name.qualify typeName flat.scope)
  | _ => none

def interface? (flat : FlatDecl) : Option (Nat × InterfaceDecl) :=
  match flat.form with
  | .interfaceDecl decl => some (flat.file, decl)
  | _ => none

end FlatDecl

/-- In a table with the newest entry first, the last entry of a key counts. -/
theorem lookup_reverse (table : List (String × String)) (key : String) :
    table.reverse.lookup key =
      ((table.filter (fun entry => entry.1 = key)).map Prod.snd).getLast? := by
  induction table with
  | nil => rfl
  | cons entry table ih =>
    obtain ⟨name, value⟩ := entry
    rw [List.reverse_cons, List.lookup_append, ih]
    by_cases hname : name = key
    · subst hname
      cases hlast : ((table.filter (fun entry => entry.1 = name)).map Prod.snd).getLast? <;>
        simp [List.getLast?_cons, hlast]
    · have hother : (key == name) = false := by simpa using Ne.symm hname
      simp [hname, hother, List.lookup_cons]

theorem filterMap_named {α : Type} (read : FlatDecl → Option α) (flats : List FlatDecl)
    (name : String) :
    ((flats.filterMap (fun flat => (read flat).map (flat.name, ·))).filter
      (fun entry => entry.1 = name)).map Prod.snd =
      (flats.filter (fun flat => flat.name = name)).filterMap read := by
  rw [List.filter_filterMap, List.map_filterMap, List.filterMap_filter]
  apply List.filterMap_congr
  intro flat _
  by_cases hname : flat.name = name
  · cases hread : read flat <;> simp [hname]
  · cases hread : read flat <;> simp [hname]

namespace Site

variable (file : Nat) (site : Site)

theorem flattened_annotations :
    (site.flattened file).filterMap (fun flat => flat.typeName?.map (flat.name, ·)) =
      site.annotations := by
  obtain ⟨specifier, scope, start, decl?⟩ := site
  cases decl? with
  | none => rfl
  | some declared =>
    cases declared with
    | functionDecl decl =>
      cases hr : decl.signature.result <;>
        simp [flattened, annotations, typedFunctions, typedVariables, FlatDecl.typeName?,
          FlatDecl.type?, hr]
    | variableDecl decl =>
      simp only [flattened, annotations, typedFunctions, typedVariables, List.nil_append,
        List.filterMap_filterMap, List.map_filterMap]
      apply List.filterMap_congr
      intro declarator _
      cases declarator with
      | destructured => rfl
      | ident name type? => cases type? <;> rfl
    | _ => rfl

theorem flattened_typings :
    (site.flattened file).filterMap (fun flat => flat.typing?.map (·, flat.name)) =
      site.typings := by
  obtain ⟨specifier, scope, start, decl?⟩ := site
  cases decl? with
  | none => rfl
  | some declared =>
    cases declared with
    | variableDecl decl =>
      simp only [flattened, typings, typedVariables, List.filterMap_filterMap]
      apply List.filterMap_congr
      intro declarator _
      cases declarator with
      | destructured => rfl
      | ident name type? =>
        cases type? with
        | none => rfl
        | some type =>
          cases ht : type.simpleName? <;>
            simp [Declarator.flattened, Declarator.typed?, FlatDecl.typing?, ht]
    | _ => rfl

theorem flattened_interfaces :
    (site.flattened file).filterMap (fun flat => flat.interface?.map (flat.name, ·)) =
      site.interfaces.map (fun declared => (declared.1, file, declared.2)) := by
  obtain ⟨specifier, scope, start, decl?⟩ := site
  cases decl? with
  | none => rfl
  | some declared =>
    cases declared with
    | variableDecl decl =>
      simp only [flattened, interfaces, List.map_nil, List.filterMap_filterMap,
        List.filterMap_eq_nil_iff]
      intro declarator _
      cases declarator <;> rfl
    | _ => rfl

end Site

namespace Index

theorem interfaceEntries_addContainer (index : Index) (entry : String) (file : Nat)
    (container : Container) (name : String) :
    (index.addContainer entry file container).interfaceEntries name =
      index.interfaceEntries name ++ (if entry = name then
        ((ContainerEntry.interface? ⟨entry, file, container⟩).map (file, ·)).toList else []) := by
  by_cases h : entry = name
  · cases container <;>
      simp [addContainer, interfaceEntries, containersOf, h, ContainerEntry.interface?]
  · simp [addContainer, interfaceEntries, containersOf, h]

theorem addSite_interfaceEntries (file : Nat) (index : Index) (site : Site) (name : String) :
    (index.addSite file site).interfaceEntries name = index.interfaceEntries name ++
      ((site.flattened file).filter (fun flat => flat.name = name)).filterMap
        FlatDecl.interface? := by
  rw [← filterMap_named, Site.flattened_interfaces]
  obtain ⟨specifier, scope, start, decl?⟩ := site
  cases decl? with
  | none => simp [addSite, Site.interfaces]
  | some decl =>
    cases decl with
    | functionDecl decl =>
      cases hr : decl.signature.result <;>
        simp [addSite, addFunction, Site.interfaces, hr, interfaceEntries, containersOf]
    | variableDecl decl =>
      simp [addSite, foldl_addDeclarator, Site.interfaces, interfaceEntries, containersOf]
    | interfaceDecl decl =>
      simp only [addSite, addInterface, interfaceEntries_addContainer, Site.interfaces]
      split_ifs <;> simp_all [interfaceEntries, containersOf, ContainerEntry.interface?]
    | namespaceDecl isDeclared parts items =>
      simp [addSite, interfaceEntries_addContainer, Site.interfaces, ContainerEntry.interface?]
    | _ => simp [addSite, Site.interfaces]

theorem addSites_interfaceEntries (file : Nat) (sites : List Site) (index : Index)
    (name : String) :
    (sites.foldl (addSite file) index).interfaceEntries name = index.interfaceEntries name ++
      ((sites.flatMap (Site.flattened file)).filter (fun flat => flat.name = name)).filterMap
        FlatDecl.interface? := by
  induction sites generalizing index with
  | nil => simp
  | cons site sites ih =>
    rw [List.foldl_cons, ih, addSite_interfaceEntries, List.flatMap_cons, List.filter_append,
      List.filterMap_append, List.append_assoc]

theorem addFiles_interfaceEntries (files : List SourceFile) (index : Index) (name : String) :
    (files.foldl (fun index file => index.addItems file.id "" file.items) index).interfaceEntries
        name =
      index.interfaceEntries name ++
        ((flattened files).filter (fun flat => flat.name = name)).filterMap
          FlatDecl.interface? := by
  induction files generalizing index with
  | nil => simp [flattened]
  | cons file files ih =>
    rw [List.foldl_cons, ih, addItems_sites file.id file.specifier,
      sitesOf_joined _ _ _ file.named, addSites_interfaceEntries, flattened_cons,
      List.filter_append, List.filterMap_append, List.append_assoc]

end Index

/-- What is read off a flattened corpus can be read off its sites, where it does not depend on the
file. -/
theorem flattened_filterMap {α : Type} (read : FlatDecl → Option α) (readSite : Site → List α)
    (h : ∀ file site, (Site.flattened file site).filterMap read = readSite site)
    (files : List SourceFile) :
    (flattened files).filterMap read = (fileSites .stepwise files).flatMap readSite := by
  induction files with
  | nil => rfl
  | cons file files ih =>
    have hfile : ((sitesOf .stepwise file.specifier "" file.items).flatMap
        (Site.flattened file.id)).filterMap read =
        (sitesOf .stepwise file.specifier "" file.items).flatMap readSite := by
      rw [List.filterMap_flatMap]
      exact List.flatMap_congr fun site _ => h file.id site
    rw [flattened_cons, List.filterMap_append, hfile, ih]
    exact List.flatMap_append.symm

namespace Corpus

variable (corpus : Corpus)

theorem typeOf_flattened (name : String) :
    corpus.index.typeOf name = (((flattened corpus.files).filter
      (fun flat => flat.name = name)).filterMap FlatDecl.typeName?).getLast? := by
  rw [Index.typeOf, corpus.index_isOf.declared, lookup_reverse,
    ← flattened_filterMap _ _ Site.flattened_annotations, filterMap_named]

theorem nameOfType_flattened (name : String) :
    corpus.index.nameOfType name = (((flattened corpus.files).filter
      (fun flat => flat.typing? = some name)).map FlatDecl.name).getLast? := by
  have hread : (((flattened corpus.files).filterMap
      (fun flat => flat.typing?.map (·, flat.name))).filter (fun entry => entry.1 = name)).map
        Prod.snd =
      ((flattened corpus.files).filter (fun flat => flat.typing? = some name)).map
        FlatDecl.name := by
    rw [List.filter_filterMap, List.map_filterMap, ← List.filterMap_eq_map, List.filterMap_filter]
    apply List.filterMap_congr
    intro flat _
    cases ht : flat.typing? with
    | none => rfl
    | some typeName => by_cases hname : typeName = name <;> simp [hname]
  rw [Index.nameOfType, corpus.index_isOf.typed, lookup_reverse,
    ← flattened_filterMap _ _ Site.flattened_typings, hread]

theorem interfaceEntries_flattened (name : String) :
    corpus.index.interfaceEntries name = ((flattened corpus.files).filter
      (fun flat => flat.name = name)).filterMap FlatDecl.interface? :=
  Index.addFiles_interfaceEntries corpus.files {} name

theorem isConstructorType_iff (name : String) :
    corpus.index.isConstructorType name = true ↔
      ∃ entry ∈ corpus.index.interfaceEntries name,
        entry.2.members.any Member.isConstruct = true := by
  rw [corpus.index_isOf.constructs]
  simp only [← corpus.index_isOf.mem_interfaces, Index.interfaces, List.mem_map]
  constructor
  · rintro ⟨_, ⟨entry, hentry, rfl⟩, hconstruct⟩
    exact ⟨entry, hentry, hconstruct⟩
  · rintro ⟨entry, hentry, hconstruct⟩
    exact ⟨entry.2, ⟨entry, hentry, rfl⟩, hconstruct⟩

theorem isKnown_of_nameOfType {name binding : String}
    (h : corpus.index.nameOfType name = some binding) : corpus.index.isKnown binding = true := by
  obtain ⟨site, hsite, type, -, htyped, -, -⟩ := corpus.index_isOf.typing_of_nameOfType h
  exact corpus.index_isOf.isKnown_of_annotation
    (List.mem_flatMap.mpr ⟨site, hsite, site.recorded_of_typedVariable htyped⟩)

end Corpus

/-- Every answer of an index is read off the flattened declarations: the last type of a name, the
last variable of a type, the interfaces of a name with their files, and what an interface is about.
-/
theorem Corpus.index_flattened (corpus : Corpus) (name : String) :
    corpus.index.typeOf name = (((flattened corpus.files).filter
      (fun flat => flat.name = name)).filterMap FlatDecl.typeName?).getLast? ∧
    corpus.index.nameOfType name = (((flattened corpus.files).filter
      (fun flat => flat.typing? = some name)).map FlatDecl.name).getLast? ∧
    corpus.index.interfaceEntries name = ((flattened corpus.files).filter
      (fun flat => flat.name = name)).filterMap FlatDecl.interface? ∧
    (corpus.index.isConstructorType name = true ↔
      ∃ entry ∈ corpus.index.interfaceEntries name,
        entry.2.members.any Member.isConstruct = true) ∧
    corpus.index.bindingOf name =
      (if corpus.index.isKnown name then some ⟨name, corpus.index.typeOf name⟩
      else (corpus.index.nameOfType name).map
        (fun binding => ⟨binding, corpus.index.typeOf binding⟩)) ∧
    (corpus.index.nameOfType name).all corpus.index.isKnown = true := by
  refine ⟨corpus.typeOf_flattened name, corpus.nameOfType_flattened name,
    corpus.interfaceEntries_flattened name, corpus.isConstructorType_iff name, ?_, ?_⟩
  · rw [Index.bindingOf, Index.isKnown]
    cases corpus.index.typeOf name <;> rfl
  · rw [Option.all_eq_true_iff_get]
    intro h
    exact corpus.isKnown_of_nameOfType (Option.some_get h).symm

end AmbientCatalog
