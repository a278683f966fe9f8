import AmbientCatalog.Proofs.Requests

/-!
# The two passes over a corpus

The index is made in one pass over all statements and the survey in another. Each is a recursion of
its own: the index joins the parts of a dotted namespace before it qualifies them, the survey goes
into it part by part. A visit is a statement that a pass comes to, with its file and the scope that
the pass has made by then; the declaration of a namespace or of a global block is visited before
what stands inside. Each pass does one thing at each of its visits and nothing else, and the visits
of the two are the same.
-/

set_option autoImplicit false

namespace AmbientCatalog

mutual
def Decl.inside (nest : Nesting) (specifier scope : String) : Decl → List Site
  | .namespaceDecl _ parts items => visitsOf nest specifier (nest scope parts) items
  | .globalBlock items => visitsOf nest specifier scope items
  | _ => []

def Content.visits (nest : Nesting) (specifier scope : String) (start : Position) :
    Content → List Site
  | .plain decl => ⟨specifier, scope, start, some decl⟩ :: decl.inside nest specifier scope
  | .exported decl => ⟨specifier, scope, start, some decl⟩ :: decl.inside nest specifier scope
  | .empty => []
  | .other => [⟨specifier, scope, start, none⟩]

def Item.visits (nest : Nesting) (specifier scope : String) : Item → List Site
  | .mk start content => content.visits nest specifier scope start

def visitsOf (nest : Nesting) (specifier scope : String) : List Item → List Site
  | [] => []
  | item :: items => item.visits nest specifier scope ++ visitsOf nest specifier scope items
end

def visits (nest : Nesting) (files : List SourceFile) : List (SourceFile × Site) :=
  files.flatMap (fun file => (visitsOf nest file.specifier "" file.items).map (file, ·))

theorem visits_cons (nest : Nesting) (file : SourceFile) (files : List SourceFile) :
    visits nest (file :: files) =
      (visitsOf nest file.specifier "" file.items).map (file, ·) ++ visits nest files := rfl

def Site.isGlobalBlock (site : Site) : Bool :=
  match site.decl? with
  | some (.globalBlock _) => true
  | _ => false

section Sites

variable (nest : Nesting) (specifier : String)

mutual
theorem Decl.filter_visits (scope : String) (start : Position) : ∀ decl : Decl,
    (⟨specifier, scope, start, some decl⟩ :: decl.inside nest specifier scope).filter
      (!·.isGlobalBlock) = decl.sites nest specifier scope start
  | .namespaceDecl isDeclared parts items => by
    rw [Decl.inside, Decl.sites, List.filter_cons_of_pos rfl, filter_visitsOf]
  | .globalBlock items => by
    rw [Decl.inside, Decl.sites, List.filter_cons_of_neg (by simp [Site.isGlobalBlock]),
      filter_visitsOf]
  | .functionDecl _ => rfl
  | .variableDecl _ => rfl
  | .interfaceDecl _ => rfl
  | .classDecl _ => rfl
  | .outsideModule => rfl
  | .aliasDecl _ _ => rfl
  | .enumDecl => rfl
  | .usingDecl => rfl

theorem Content.filter_visits (scope : String) (start : Position) : ∀ content : Content,
    (content.visits nest specifier scope start).filter (!·.isGlobalBlock) =
      content.sites nest specifier scope start
  | .plain decl => by rw [Content.visits, Content.sites, Decl.filter_visits]
  | .exported decl => by rw [Content.visits, Content.sites, Decl.filter_visits]
  | .empty => rfl
  | .other => rfl

theorem Item.filter_visits (scope : String) : ∀ item : Item,
    (item.visits nest specifier scope).filter (!·.isGlobalBlock) = item.sites nest specifier scope
  | .mk start content => by rw [Item.visits, Item.sites, Content.filter_visits]

/-- The sites are the visits other than those of global blocks. -/
theorem filter_visitsOf (scope : String) : ∀ items : List Item,
    (visitsOf nest specifier scope items).filter (!·.isGlobalBlock) =
      sitesOf nest specifier scope items
  | [] => rfl
  | item :: items => by
    rw [visitsOf, sitesOf, List.filter_append, Item.filter_visits, filter_visitsOf]
end

end Sites

theorem mem_fileSites_of_visit {nest : Nesting} {files : List SourceFile} {file : SourceFile}
    {site : Site} (hmem : (file, site) ∈ visits nest files) (hsite : site.isGlobalBlock = false) :
    site ∈ fileSites nest files := by
  obtain ⟨source, hfile, hin⟩ := List.mem_flatMap.mp hmem
  obtain ⟨visited, hvisited, heq⟩ := List.mem_map.mp hin
  obtain ⟨rfl, rfl⟩ := Prod.mk.inj heq
  refine List.mem_flatMap.mpr ⟨source, hfile, ?_⟩
  rw [← filter_visitsOf]
  exact List.mem_filter.mpr ⟨hvisited, by simp [hsite]⟩

section Nesting

variable (specifier : String)

mutual
theorem Decl.inside_joined (scope : String) (start : Position) : ∀ decl : Decl,
    WellNamed (decl.sites .stepwise specifier scope start) →
      decl.inside .joined specifier scope = decl.inside .stepwise specifier scope
  | .namespaceDecl isDeclared parts items, h => by
    have hparts : ∀ p ∈ parts, p ≠ "" := fun p hp => (h _ List.mem_cons_self p hp).1
    rw [Decl.inside, Decl.inside, Nesting.joined_eq_stepwise hparts,
      visitsOf_joined _ items (fun site hs => h site (List.mem_cons_of_mem _ hs))]
  | .globalBlock items, h => visitsOf_joined scope items h
  | .functionDecl _, _ => rfl
  | .variableDecl _, _ => rfl
  | .interfaceDecl _, _ => rfl
  | .classDecl _, _ => rfl
  | .outsideModule, _ => rfl
  | .aliasDecl _ _, _ => rfl
  | .enumDecl, _ => rfl
  | .usingDecl, _ => rfl

theorem Content.visits_joined (scope : String) (start : Position) : ∀ content : Content,
    WellNamed (content.sites .stepwise specifier scope start) →
      content.visits .joined specifier scope start =
        content.visits .stepwise specifier scope start
  | .plain decl, h => congrArg (_ :: ·) (Decl.inside_joined scope start decl h)
  | .exported decl, h => congrArg (_ :: ·) (Decl.inside_joined scope start decl h)
  | .empty, _ => rfl
  | .other, _ => rfl

theorem Item.visits_joined (scope : String) : ∀ item : Item,
    WellNamed (item.sites .stepwise specifier scope) →
      item.visits .joined specifier scope = item.visits .stepwise specifier scope
  | .mk start content, h => Content.visits_joined scope start content h

theorem visitsOf_joined (scope : String) : ∀ items : List Item,
    WellNamed (sitesOf .stepwise specifier scope items) →
      visitsOf .joined specifier scope items = visitsOf .stepwise specifier scope items
  | [], _ => rfl
  | item :: items, h => by
    rw [visitsOf, visitsOf, Item.visits_joined scope item h.left,
      visitsOf_joined scope items h.right]
end

end Nesting

theorem visits_joined (files : List SourceFile) :
    visits .joined files = visits .stepwise files := by
  induction files with
  | nil => rfl
  | cons file files ih => rw [visits_cons, visits_cons, visitsOf_joined _ _ _ file.named, ih]

namespace Index

theorem addSite_globalBlock (file : Nat) (index : Index) {site : Site}
    (h : site.isGlobalBlock = true) : index.addSite file site = index := by
  obtain ⟨specifier, scope, start, decl?⟩ := site
  cases decl? with
  | none => rfl
  | some decl =>
    cases decl with
    | globalBlock items => rfl
    | _ => simp [Site.isGlobalBlock] at h

/-- The index of a list of statements is made by one step at each visit. -/
theorem addItems_visits (file : Nat) (specifier scope : String) (index : Index)
    (items : List Item) :
    index.addItems file scope items =
      (visitsOf .joined specifier scope items).foldl (addSite file) index := by
  -- the sites leave global blocks out, and adding these changes nothing
  have hskip : (fun (index : Index) site =>
      if !site.isGlobalBlock then index.addSite file site else index) = addSite file := by
    funext index site
    split_ifs with h
    · rfl
    · exact (index.addSite_globalBlock file (by simpa using h)).symm
  rw [addItems_sites file specifier, ← filter_visitsOf, List.foldl_filter, hskip]

theorem addFiles_visits (files : List SourceFile) (index : Index) :
    files.foldl (fun index file => index.addItems file.id "" file.items) index =
      (visits .joined files).foldl (fun index visit => index.addSite visit.1.id visit.2) index := by
  induction files generalizing index with
  | nil => rfl
  | cons file files ih =>
    rw [List.foldl_cons, addItems_visits file.id file.specifier, visits_cons, List.foldl_append,
      List.foldl_map, ih]

end Index

namespace Setting

def surveySite (s : Setting) (site : Site) : Survey (List Finding) :=
  match site.decl? with
  | some (.functionDecl decl) => return entries (s.ofFunction site.scope decl)
  | some (.variableDecl decl) =>
    return entries (← s.ofVariables site.scope decl decl.declarators)
  | some (.interfaceDecl decl) => return entries (← s.ofInterface site.scope decl)
  | some (.classDecl decl) => return entries (decl.nodes site.scope)
  | some (.namespaceDecl isDeclared parts _) =>
    return entries (if s.options.namespaceNodes then
      (namespaceNodes isDeclared site.scope parts).1 else [])
  | some (.globalBlock _) => return []
  | some .outsideModule => return []
  | some (.aliasDecl _ _) => return []
  | some .enumDecl => return [.unsupported ⟨site.specifier, site.start⟩]
  | some .usingDecl => return [.unsupported ⟨site.specifier, site.start⟩]
  | none => return [.unsupported ⟨site.specifier, site.start⟩]

def surveyAll (s : Setting) : List Site → Survey (List Finding)
  | [] => return []
  | site :: sites => do
    let found ← s.surveySite site
    let others ← s.surveyAll sites
    return found ++ others

theorem surveyAll_singleton (s : Setting) (site : Site) :
    s.surveyAll [site] = s.surveySite site := by
  simp [surveyAll]

theorem surveyAll_append (s : Setting) (sites sites' : List Site) :
    s.surveyAll (sites ++ sites') = (do
      let found ← s.surveyAll sites
      let others ← s.surveyAll sites'
      return found ++ others) := by
  induction sites with
  | nil => simp [surveyAll]
  | cons site sites ih =>
    simp only [surveyAll, List.cons_append, ih, bind_assoc, pure_bind, List.append_assoc]

mutual
theorem ofDecl_visits (s : Setting) (specifier scope : String) (start : Position) :
    ∀ decl : Decl, s.ofDecl specifier scope start decl =
      s.surveyAll (⟨specifier, scope, start, some decl⟩ ::
        decl.inside .stepwise specifier scope)
  | .functionDecl decl =>
    (s.surveyAll_singleton ⟨specifier, scope, start, some (.functionDecl decl)⟩).symm
  | .variableDecl decl =>
    (s.surveyAll_singleton ⟨specifier, scope, start, some (.variableDecl decl)⟩).symm
  | .interfaceDecl decl =>
    (s.surveyAll_singleton ⟨specifier, scope, start, some (.interfaceDecl decl)⟩).symm
  | .classDecl decl =>
    (s.surveyAll_singleton ⟨specifier, scope, start, some (.classDecl decl)⟩).symm
  | .namespaceDecl isDeclared parts items => by
    -- the survey takes the scope inside from the nodes it makes on the way in
    have hinner := ofItems_visits s specifier (Nesting.stepwise scope parts) items
    rw [← namespaceNodes_scope isDeclared] at hinner
    rw [ofDecl, Decl.inside, surveyAll, ← namespaceNodes_scope isDeclared, ← hinner]
    simp [surveySite]
  | .globalBlock items => by
    rw [ofDecl, Decl.inside, surveyAll, ofItems_visits s specifier scope items]
    simp [surveySite]
  | .outsideModule => rfl
  | .aliasDecl _ _ => rfl
  | .enumDecl => rfl
  | .usingDecl => rfl

theorem ofContent_visits (s : Setting) (specifier scope : String) (start : Position) :
    ∀ content : Content, s.ofContent specifier scope start content =
      s.surveyAll (content.visits .stepwise specifier scope start)
  | .plain decl => by rw [ofContent, Content.visits, ofDecl_visits]
  | .exported decl => by rw [ofContent, Content.visits, ofDecl_visits]
  | .empty => rfl
  | .other => rfl

theorem ofItem_visits (s : Setting) (specifier scope : String) :
    ∀ item : Item, s.ofItem specifier scope item =
      s.surveyAll (item.visits .stepwise specifier scope)
  | .mk start content => by rw [ofItem, Item.visits, ofContent_visits]

/-- The survey of a list of statements is made by one step at each visit. -/
theorem ofItems_visits (s : Setting) (specifier scope : String) :
    ∀ items : List Item, s.ofItems specifier scope items =
      s.surveyAll (visitsOf .stepwise specifier scope items)
  | [] => rfl
  | item :: items => by
    rw [ofItems, visitsOf, surveyAll_append, ofItem_visits, ofItems_visits]
end

theorem ofFiles_visits (s : Setting) (files : List SourceFile) :
    s.ofFiles files = s.surveyAll ((visits .stepwise files).map Prod.snd) := by
  induction files with
  | nil => rfl
  | cons file files ih =>
    rw [ofFiles, ofItems_visits, ih, visits_cons, List.map_append, surveyAll_append,
      List.map_map, Function.comp_def, List.map_id']

theorem ofFiles_ok (corpus : Corpus) (options : Options) : ∃ found done,
    (corpus.setting options).ofFiles corpus.files [] = .ok (found, done) := by
  obtain ⟨nodes, done, -, hbuild, -⟩ := Catalog.build_run corpus options
  rw [Catalog.build, Catalog.findings] at hbuild
  cases hrun : (corpus.setting options).ofFiles corpus.files [] with
  | error e => simp [hrun, Except.map, Functor.map] at hbuild
  | ok result => exact ⟨result.1, result.2, rfl⟩

end Setting

theorem WellNamed.namespace_scope {sites : List Site} (h : WellNamed sites) {site : Site}
    (hsite : site ∈ sites) {isDeclared : Bool} {parts : List String} {items : List Item}
    (hdecl : site.decl? = some (.namespaceDecl isDeclared parts items)) :
    (Setting.namespaceNodes isDeclared site.scope parts).2 =
      Name.qualify (".".intercalate parts) site.scope := by
  have hparts : ∀ part ∈ parts, part ≠ "" := by
    intro part hpart
    have hident := h site hsite part (by simpa [Site.identifiers, hdecl] using hpart)
    exact hident.1
  rw [Setting.namespaceNodes_scope, ← Nesting.joined_eq_stepwise hparts]
  rfl

namespace Index.IsOf

variable {index : Index} {sites : List Site} {site : Site}

theorem hasInterface_of_site (h : index.IsOf sites) (hsite : site ∈ sites) {decl : InterfaceDecl}
    (hdecl : site.decl? = some (.interfaceDecl decl)) :
    index.hasInterface (Name.qualify decl.name site.scope) = true :=
  h.hasInterface_iff.mpr
    ⟨decl, List.mem_flatMap.mpr ⟨site, hsite, by simp [Site.interfaces, hdecl]⟩⟩

theorem isKnown_of_annotation (h : index.IsOf sites) {name typeName : String}
    (hmem : (name, typeName) ∈ sites.flatMap Site.annotations) : index.isKnown name = true := by
  rw [isKnown, typeOf, h.declared, Option.isSome_iff_ne_none]
  intro hnone
  have hne := List.lookup_eq_none_iff.mp hnone _ (List.mem_reverse.mpr hmem)
  simp at hne

theorem isKnown_of_site (h : index.IsOf sites) (hsite : site ∈ sites) {decl : VariableDecl}
    (hdecl : site.decl? = some (.variableDecl decl)) {name : String} {type : TypeExpr}
    (hmem : .ident name (some type) ∈ decl.declarators) :
    index.isKnown (Name.qualify name site.scope) = true := by
  have htyped := Site.typedVariable_of_declarator hdecl hmem rfl
  apply h.isKnown_of_annotation
  exact List.mem_flatMap.mpr ⟨site, hsite, Site.recorded_of_typedVariable htyped⟩

end Index.IsOf

/-- The index and the survey are made by one step at each visit of their own walks, the visits are
the same, and whatever the survey meets is in the index under the name it is met by. -/
theorem Catalog.passes_agree (corpus : Corpus) (options : Options) :
    corpus.index = (visits .joined corpus.files).foldl
      (fun index visit => index.addSite visit.1.id visit.2) {} ∧
    (corpus.setting options).ofFiles corpus.files =
      (corpus.setting options).surveyAll
        ((visits .stepwise corpus.files).map Prod.snd) ∧
    (∃ found done, (corpus.setting options).ofFiles corpus.files [] =
      .ok (found, done)) ∧
    visits .joined corpus.files = visits .stepwise corpus.files ∧
    ∀ file site, (file, site) ∈ visits .stepwise corpus.files →
      (∀ isDeclared parts items, site.decl? = some (.namespaceDecl isDeclared parts items) →
        (Setting.namespaceNodes isDeclared site.scope parts).2 =
          Name.qualify (".".intercalate parts) site.scope) ∧
      (∀ decl, site.decl? = some (.interfaceDecl decl) →
        corpus.index.hasInterface (Name.qualify decl.name site.scope) = true) ∧
      (∀ decl name type, site.decl? = some (.variableDecl decl) →
        .ident name (some type) ∈ decl.declarators →
          corpus.index.isKnown (Name.qualify name site.scope) = true) := by
  have hindex := corpus.index_isOf
  refine ⟨Index.addFiles_visits corpus.files {}, Setting.ofFiles_visits _ corpus.files,
    Setting.ofFiles_ok corpus options, visits_joined corpus.files, fun file site hvisit => ?_⟩
  have hsite : site.isGlobalBlock = false → site ∈ fileSites .stepwise corpus.files :=
    mem_fileSites_of_visit hvisit
  refine ⟨fun isDeclared parts items hdecl => ?_, fun decl hdecl => ?_,
    fun decl name type hdecl hmem => ?_⟩
  · exact (wellNamed_fileSites corpus.files).namespace_scope
      (hsite (by simp [Site.isGlobalBlock, hdecl])) hdecl
  · exact hindex.hasInterface_of_site (hsite (by simp [Site.isGlobalBlock, hdecl])) hdecl
  · exact hindex.isKnown_of_site (hsite (by simp [Site.isGlobalBlock, hdecl])) hdecl hmem

end AmbientCatalog
