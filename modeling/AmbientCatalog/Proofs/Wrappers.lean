import AmbientCatalog.Proofs.Isolation
import AmbientCatalog.Proofs.Recording

/-!
# Wrappers around declarations

The same declarations can be written with more or fewer wrappers: with or without `export`, inside a
global block or beside it, in a dotted namespace or in namespaces inside each other. Taking wrappers
off changes the sites of a file, but only in their positions and in how namespaces are cut into
parts. What is left after these are forgotten decides which names are identifiers, what the index
answers and which nodes are registered, the hidden tag of namespaces apart. So the written catalog
is the same.
-/

set_option autoImplicit false

namespace AmbientCatalog

def Content.holding (isExported : Bool) (decl : Decl) : Content :=
  if isExported then .exported decl else .plain decl

/-- The second list of statements is the first one with some wrappers taken off, here or inside the
namespaces and global blocks. -/
inductive Unwraps : List Item → List Item → Prop
  | unexport (start start' : Position) (decl : Decl) :
      Unwraps [.mk start (.exported decl)] [.mk start' (.plain decl)]
  | splice (start : Position) (isExported : Bool) (items : List Item) :
      Unwraps [.mk start (.holding isExported (.globalBlock items))] items
  | nest (start inner : Position) (isExported isExported' isDeclared isDeclared' : Bool)
      (part next : String) (parts : List String) (items : List Item) :
      Unwraps
        [.mk start (.holding isExported
          (.namespaceDecl isDeclared (part :: next :: parts) items))]
        [.mk start (.holding isExported (.namespaceDecl isDeclared [part]
          [.mk inner (.holding isExported'
            (.namespaceDecl isDeclared' (next :: parts) items))]))]
  | inNamespace (start : Position) (isExported isDeclared : Bool) (parts : List String)
      {items items' : List Item} (h : Unwraps items items') :
      Unwraps [.mk start (.holding isExported (.namespaceDecl isDeclared parts items))]
        [.mk start (.holding isExported (.namespaceDecl isDeclared parts items'))]
  | inGlobal (start : Position) (isExported : Bool) {items items' : List Item}
      (h : Unwraps items items') :
      Unwraps [.mk start (.holding isExported (.globalBlock items))]
        [.mk start (.holding isExported (.globalBlock items'))]
  | append {items items' more more' : List Item} (h : Unwraps items items')
      (h' : Unwraps more more') : Unwraps (items ++ more) (items' ++ more')
  | refl (items : List Item) : Unwraps items items
  | trans {items items' items'' : List Item} (h : Unwraps items items')
      (h' : Unwraps items' items'') : Unwraps items items''

def openings (scope : String) : List String → List Site
  | [] => []
  | part :: parts =>
    ⟨"", scope, ⟨0, 0⟩, some (.namespaceDecl false [part] [])⟩ ::
      openings (Name.qualify part scope) parts

namespace Site

/-- What is left of a site without its position and file, with a namespace opened part by part. -/
def reduced (site : Site) : List Site :=
  match site.decl? with
  | none => []
  | some (.namespaceDecl _ parts _) => openings site.scope parts
  | some decl => [⟨"", site.scope, ⟨0, 0⟩, some decl⟩]

def Reads {α : Type} (read : Site → List α) : Prop :=
  ∀ site, site.reduced.flatMap read = read site

theorem openings_nothing {α : Type} {read : Site → List α}
    (h : ∀ scope part, read ⟨"", scope, ⟨0, 0⟩, some (.namespaceDecl false [part] [])⟩ = [])
    (scope : String) (parts : List String) : (openings scope parts).flatMap read = [] := by
  induction parts generalizing scope with
  | nil => rfl
  | cons part parts ih => rw [openings, List.flatMap_cons, h, ih, List.nil_append]

theorem openings_identifiers (scope : String) (parts : List String) :
    (openings scope parts).flatMap identifiers = parts := by
  induction parts generalizing scope with
  | nil => rfl
  | cons part parts ih =>
    rw [openings, List.flatMap_cons, ih]
    rfl

theorem reads_identifiers : Reads identifiers := by
  rintro ⟨specifier, scope, start, decl?⟩
  cases decl? with
  | none => rfl
  | some decl =>
    cases decl with
    | namespaceDecl isDeclared parts items => exact openings_identifiers scope parts
    | _ => simp [reduced, identifiers]

/-- Enough for reading: nothing stands at namespaces, and the place of a declaration does not
matter. -/
theorem reads_of_leaves {α : Type} {read : Site → List α}
    (hnone : ∀ specifier scope start, read ⟨specifier, scope, start, none⟩ = [])
    (hnamespace : ∀ specifier scope start isDeclared parts items,
      read ⟨specifier, scope, start, some (.namespaceDecl isDeclared parts items)⟩ = [])
    (hplace : ∀ specifier scope start decl?,
      read ⟨"", scope, ⟨0, 0⟩, decl?⟩ = read ⟨specifier, scope, start, decl?⟩) :
    Reads read := by
  rintro ⟨specifier, scope, start, decl?⟩
  cases decl? with
  | none => exact (hnone specifier scope start).symm
  | some decl =>
    cases decl with
    | namespaceDecl isDeclared parts items =>
      rw [hnamespace]
      exact openings_nothing (fun _ _ => hnamespace ..) scope parts
    | _ => exact (List.append_nil _).trans (hplace specifier scope start _)

theorem reads_annotations : Reads annotations :=
  reads_of_leaves (fun _ _ _ => rfl) (fun _ _ _ _ _ _ => rfl) (fun _ _ _ _ => rfl)

theorem reads_typings : Reads typings :=
  reads_of_leaves (fun _ _ _ => rfl) (fun _ _ _ _ _ _ => rfl) (fun _ _ _ _ => rfl)

theorem reads_interfaces : Reads interfaces :=
  reads_of_leaves (fun _ _ _ => rfl) (fun _ _ _ _ _ _ => rfl) (fun _ _ _ _ => rfl)

theorem Reads.flatMap {α : Type} {read : Site → List α} (h : Reads read) (sites : List Site) :
    (sites.flatMap reduced).flatMap read = sites.flatMap read := by
  rw [List.flatMap_assoc]
  exact List.flatMap_congr fun site _ => h site

end Site

theorem sitesOf_singleton (nest : Nesting) (specifier scope : String) (start : Position)
    (content : Content) :
    sitesOf nest specifier scope [.mk start content] =
      content.sites nest specifier scope start := by
  rw [sitesOf, sitesOf, Item.sites, List.append_nil]

theorem sitesOf_append (nest : Nesting) (specifier scope : String) (items items' : List Item) :
    sitesOf nest specifier scope (items ++ items') =
      sitesOf nest specifier scope items ++ sitesOf nest specifier scope items' := by
  induction items with
  | nil => rfl
  | cons item items ih => rw [List.cons_append, sitesOf, sitesOf, ih, List.append_assoc]

theorem Content.sites_holding (nest : Nesting) (specifier scope : String) (start : Position)
    (isExported : Bool) (decl : Decl) :
    (Content.holding isExported decl).sites nest specifier scope start =
      decl.sites nest specifier scope start := by
  cases isExported <;> rfl

theorem Decl.reduced_sites (specifier scope : String) (start start' : Position) (decl : Decl) :
    (decl.sites .stepwise specifier scope start).flatMap Site.reduced =
      (decl.sites .stepwise specifier scope start').flatMap Site.reduced := by
  cases decl with
  | namespaceDecl isDeclared parts items => rw [Decl.sites, Decl.sites]; rfl
  | globalBlock items => rw [Decl.sites, Decl.sites]
  | _ => rfl

/-- Unwrapped statements leave the same. -/
theorem Unwraps.reduced_eq {items items' : List Item} (h : Unwraps items items')
    (specifier scope : String) :
    (sitesOf .stepwise specifier scope items).flatMap Site.reduced =
      (sitesOf .stepwise specifier scope items').flatMap Site.reduced := by
  induction h generalizing scope with
  | unexport start start' decl =>
    rw [sitesOf_singleton, sitesOf_singleton]
    exact decl.reduced_sites specifier scope start start'
  | splice start isExported items =>
    rw [sitesOf_singleton, Content.sites_holding, Decl.sites]
  | nest start inner isExported isExported' isDeclared isDeclared' part next parts items =>
    -- a dotted namespace leaves one opening for each part, of which the first is split off
    simp only [sitesOf_singleton, Content.sites_holding, Decl.sites, List.flatMap_cons]
    rw [← List.append_assoc]
    rfl
  | inNamespace start isExported isDeclared parts h ih =>
    simp only [sitesOf_singleton, Content.sites_holding, Decl.sites, List.flatMap_cons]
    rw [ih]
    rfl
  | inGlobal start isExported h ih =>
    simp only [sitesOf_singleton, Content.sites_holding, Decl.sites]
    exact ih scope
  | append h h' ih ih' =>
    rw [sitesOf_append, sitesOf_append, List.flatMap_append, List.flatMap_append, ih, ih']
  | refl items => rfl
  | trans h h' ih ih' => rw [ih, ih']

theorem Unwraps.read {α : Type} {read : Site → List α} (hread : Site.Reads read)
    {items items' : List Item} (h : Unwraps items items') (specifier scope : String) :
    (sitesOf .stepwise specifier scope items).flatMap read =
      (sitesOf .stepwise specifier scope items').flatMap read := by
  rw [← hread.flatMap, h.reduced_eq, hread.flatMap]

theorem Unwraps.wellNamed {items items' : List Item} (h : Unwraps items items')
    {specifier scope : String} (hnames : WellNamed (sitesOf .stepwise specifier scope items)) :
    WellNamed (sitesOf .stepwise specifier scope items') := by
  intro site hsite name hname
  have hmem : name ∈ (sitesOf .stepwise specifier scope items).flatMap Site.identifiers := by
    rw [h.read Site.reads_identifiers]
    exact List.mem_flatMap.mpr ⟨site, hsite, hname⟩
  obtain ⟨site', hsite', hname'⟩ := List.mem_flatMap.mp hmem
  exact hnames site' hsite' name hname'

def SourceFile.unwrapped (file : SourceFile) {items : List Item} (h : Unwraps file.items items) :
    SourceFile :=
  { file with items := items, named := h.wellNamed file.named }

def Corpus.Unwraps (corpus corpus' : Corpus) : Prop :=
  List.Forall₂ (fun file file' => ∃ items, ∃ h : AmbientCatalog.Unwraps file.items items,
    file' = file.unwrapped h) corpus.files corpus'.files

theorem Corpus.Unwraps.read {α : Type} {read : Site → List α} (hread : Site.Reads read)
    {corpus corpus' : Corpus} (h : corpus.Unwraps corpus') :
    (fileSites .stepwise corpus.files).flatMap read =
      (fileSites .stepwise corpus'.files).flatMap read := by
  unfold Corpus.Unwraps at h
  generalize corpus.files = files, corpus'.files = files' at h ⊢
  induction h with
  | nil => rfl
  | @cons file file' files files' hfile hfiles ih =>
    obtain ⟨items, hitems, rfl⟩ := hfile
    have hcons : ∀ (first : SourceFile) rest, fileSites .stepwise (first :: rest) =
        sitesOf .stepwise first.specifier "" first.items ++ fileSites .stepwise rest :=
      fun _ _ => rfl
    rw [hcons, hcons, List.flatMap_append, List.flatMap_append, ih,
      hitems.read hread file.specifier ""]
    rfl

theorem Index.IsOf.widens_of_eq {index index' : Index} {sites sites' : List Site}
    (h : index.IsOf sites) (h' : index'.IsOf sites')
    (hannotations : sites.flatMap Site.annotations = sites'.flatMap Site.annotations)
    (htypings : sites.flatMap Site.typings = sites'.flatMap Site.typings)
    (hinterfaces : sites.flatMap Site.interfaces = sites'.flatMap Site.interfaces) :
    index.Widens index' [] where
  interfaces := fun name _ => by rw [h.interfaces, h'.interfaces, hinterfaces]
  typeOf := fun name _ => by rw [typeOf, typeOf, h.declared, h'.declared, hannotations]
  constructs := fun name _ => by
    rw [Bool.eq_iff_iff, h.constructs, h'.constructs, hinterfaces]
  nameOfType := fun name _ => by rw [nameOfType, nameOfType, h.typed, h'.typed, htypings]
  declared := fun _ _ => List.not_mem_nil
  references := fun _ _ _ _ _ => List.not_mem_nil
  recorded := fun _ _ _ => List.not_mem_nil
  typed := fun _ _ _ => List.not_mem_nil

def Step.undeclared : Step → Step
  | .node emitted => .node emitted.undeclared
  | .inline binding members => .inline binding members
  | .request interface role binding => .request interface role binding

namespace Setting

def undeclaredSteps (s : Setting) (site : Site) : List Step := (s.stepsAt site).map Step.undeclared

theorem namespaceNode_undeclared (isDeclared isDeclared' : Bool) (name : String) :
    (namespaceNode isDeclared name).undeclared = (namespaceNode isDeclared' name).undeclared := by
  rw [← Node.record_eq_iff]
  cases isDeclared <;> cases isDeclared' <;> rfl

theorem openings_undeclaredSteps (s : Setting) (specifier : String) (start : Position)
    (isDeclared : Bool) (items : List Item) (scope : String) (parts : List String) :
    (openings scope parts).flatMap s.undeclaredSteps = s.undeclaredSteps
      ⟨specifier, scope, start, some (.namespaceDecl isDeclared parts items)⟩ := by
  induction parts generalizing scope with
  | nil =>
    rw [undeclaredSteps, stepsAt]
    split_ifs <;> rfl
  | cons part parts ih =>
    rw [openings, List.flatMap_cons, ih]
    simp only [undeclaredSteps, stepsAt, namespaceNodes]
    split_ifs
    · simp [Step.undeclared, namespaceNode_undeclared false isDeclared]
    · rfl

theorem reads_undeclaredSteps (s : Setting) : Site.Reads s.undeclaredSteps := by
  rintro ⟨specifier, scope, start, decl?⟩
  cases decl? with
  | none => rfl
  | some decl =>
    cases decl with
    | namespaceDecl isDeclared parts items =>
      exact s.openings_undeclaredSteps specifier start isDeclared items scope parts
    | _ => simp [Site.reduced, undeclaredSteps, stepsAt]

def recorded (result : Except MemberError (List Node × List (String × String))) :
    Except MemberError (List Record × List (String × String)) :=
  result.map (fun run => (run.1.map Node.record, run.2))

theorem perform_undeclared (s : Setting) (step : Step) (done : List (String × String)) :
    recorded (s.perform step.undeclared done) = recorded (s.perform step done) := by
  cases step with
  | node emitted =>
    show Except.ok ([emitted.undeclared.record], done) = Except.ok ([emitted.record], done)
    rw [emitted.record_undeclared]
  | inline binding members => rfl
  | request interface role binding => rfl

theorem recorded_performAll_cons (s : Setting) (step : Step) (steps : List Step)
    (done : List (String × String)) :
    recorded (s.performAll (step :: steps) done) = (do
      let (records, done) ← recorded (s.perform step done)
      let (others, done) ← recorded (s.performAll steps done)
      return (records ++ others, done)) := by
  rw [performAll_cons]
  cases s.perform step done with
  | error e => rfl
  | ok first =>
    show recorded (s.performAll steps first.2 >>= _) = (recorded (s.performAll steps first.2) >>= _)
    cases s.performAll steps first.2 with
    | error e => rfl
    | ok second => simp [recorded, Except.map, ok_bind, pure, Except.pure]

/-- The hidden tag leaves no trace in what a plan yields. -/
theorem performAll_undeclared (s : Setting) (steps : List Step) (done : List (String × String)) :
    recorded (s.performAll (steps.map Step.undeclared) done) =
      recorded (s.performAll steps done) := by
  induction steps generalizing done with
  | nil => rfl
  | cons step steps ih =>
    rw [List.map_cons, recorded_performAll_cons, recorded_performAll_cons, perform_undeclared]
    simp only [ih]

/-- The plans of a corpus and of its unwrapped form yield the same records. -/
theorem performAll_unwraps (options : Options) {corpus corpus' : Corpus}
    (h : corpus.Unwraps corpus') :
    recorded ((corpus'.setting options).performAll
      ((fileSites .stepwise corpus'.files).flatMap
        (corpus'.setting options).stepsAt) []) =
    recorded ((corpus.setting options).performAll
      ((fileSites .stepwise corpus.files).flatMap
        (corpus.setting options).stepsAt) []) := by
  have hwidens : corpus.filedIndex.Widens corpus'.filedIndex [] :=
    corpus.index_isOf.widens_of_eq corpus'.index_isOf (h.read Site.reads_annotations)
      (h.read Site.reads_typings) (h.read Site.reads_interfaces)
  have happart : ∀ name, Name.Apart [] name := fun _ => List.not_mem_nil
  have hsteps : (fileSites .stepwise corpus'.files).flatMap
      (corpus.setting options).stepsAt =
      (fileSites .stepwise corpus'.files).flatMap (corpus'.setting options).stepsAt :=
    List.flatMap_congr fun site hsite => stepsAt_widens options hwidens corpus'.index_isOf hsite
      ⟨fun _ => happart _, fun name _ => happart name, fun name _ => happart name⟩
  have hobject : ∀ interface, (corpus.setting options).takesObject interface =
      (corpus'.setting options).takesObject interface := by
    intro interface
    simp only [takesObject, hwidens.hasInterface (happart objectName)]
  have hmap : ∀ sites : List Site, (sites.flatMap (corpus.setting options).stepsAt).map
      Step.undeclared = sites.flatMap (corpus.setting options).undeclaredSteps :=
    fun _ => List.map_flatMap
  have hread := h.read (corpus.setting options).reads_undeclaredSteps
  rw [← hmap, ← hmap] at hread
  rw [← hsteps, ← performAll_widens hwidens hobject (fun interface _ _ _ => happart interface),
    ← performAll_undeclared, ← hread, performAll_undeclared]

end Setting

namespace Registry

theorem keptRecords_eq (r : Registry) (name : String) :
    r.keptRecords name = (r.records.lookup name).getD [] := by
  obtain ⟨table⟩ := r
  induction table with
  | nil => rfl
  | cons entry table ih =>
    obtain ⟨key, overloads⟩ := entry
    by_cases hkey : name = key
    · simp [keptRecords, kept, records, hkey]
    · have hother : (name == key) = false := by simpa using hkey
      simpa [keptRecords, kept, records, List.lookup_cons, hother] using ih

theorem append_records {overload overload' : Overload} (h : overload.record = overload'.record)
    (name : String) {table table' : List (String × List Overload)}
    (htable : records ⟨table⟩ = records ⟨table'⟩) :
    records ⟨append name overload table⟩ = records ⟨append name overload' table'⟩ := by
  induction table generalizing table' with
  | nil =>
    obtain rfl : table' = [] := List.map_eq_nil_iff.mp htable.symm
    simp [append, records, h]
  | cons entry table ih =>
    cases table' with
    | nil => simp [records] at htable
    | cons entry' table' =>
      obtain ⟨key, kept⟩ := entry
      obtain ⟨key', kept'⟩ := entry'
      simp only [records, List.map_cons, List.cons.injEq, Prod.mk.injEq] at htable ih
      obtain ⟨⟨rfl, hkept⟩, hrest⟩ := htable
      by_cases hkey : key = name
      · simp [append, hkey, records, hkept, h, hrest]
      · simp [append, hkey, records, hkept, ih hrest]

theorem save_records {r r' : Registry} (h : r.records = r'.records) {node node' : Node}
    (hnode : node.record = node'.record) : (r.save node).records = (r'.save node').records := by
  have hid : node.id = node'.id := by rw [← node.record_id, hnode, node'.record_id]
  have hadmits : r.admits node = r'.admits node' := by
    rw [← Bool.not_inj_iff, Bool.eq_iff_iff, Bool.not_eq_true', Bool.not_eq_true',
      admits_eq_false_iff, admits_eq_false_iff, keptRecords_eq, keptRecords_eq, h, hnode,
      Node.isPlaceholder, Node.isPlaceholder, hid]
  rw [save_eq, save_eq, hadmits, hid]
  split_ifs
  · exact append_records hnode node'.id h
  · exact h

theorem saveAll_records {r r' : Registry} (h : r.records = r'.records) {nodes nodes' : List Node}
    (hnodes : nodes.map Node.record = nodes'.map Node.record) :
    (r.saveAll nodes).records = (r'.saveAll nodes').records := by
  induction nodes generalizing nodes' r r' with
  | nil =>
    obtain rfl : nodes' = [] := List.map_eq_nil_iff.mp hnodes.symm
    exact h
  | cons node nodes ih =>
    cases nodes' with
    | nil => simp at hnodes
    | cons node' nodes' =>
      obtain ⟨hnode, hrest⟩ := List.cons.inj hnodes
      exact ih (save_records h hnode) hrest

end Registry

/-- Taking `export` off declarations, opening global blocks and nesting dotted namespaces, at any
depth, leaves the names, their order and the records under each name as they are. -/
theorem Catalog.build_unwraps (options : Options) {corpus corpus' : Corpus}
    (h : corpus.Unwraps corpus') :
    ∃ catalog catalog', build corpus options = .ok catalog ∧
      build corpus' options = .ok catalog' ∧ catalog'.records = catalog.records := by
  obtain ⟨nodes, done, hrun, hbuild, -⟩ := build_run corpus options
  obtain ⟨nodes', done', hrun', hbuild', -⟩ := build_run corpus' options
  refine ⟨_, _, hbuild, hbuild', ?_⟩
  have hsame := Setting.performAll_unwraps options h
  rw [hrun, hrun'] at hsame
  exact Registry.saveAll_records rfl (Prod.mk.inj (Except.ok.inj hsame)).1

def planeFile : SourceFile :=
  { id := 0
    specifier := "file:///plane.d.ts"
    mediaType := .dts
    items := [
      .mk ⟨1, 1⟩ (.exported (.namespaceDecl true ["Geo", "Plane"] [
        .mk ⟨2, 1⟩ (.exported (.variableDecl ⟨true, false,
          [.ident "origin" (some (.reference (.ident "Point") []))]⟩))])),
      .mk ⟨3, 1⟩ (.plain (.globalBlock [
        .mk ⟨4, 1⟩ (.plain (.interfaceDecl ⟨"Point", [],
          [.property (.ident "x") false false (some (.keyword .number))]⟩))]))]
    named := by decide }

def planeItems : List Item :=
  [.mk ⟨1, 8⟩ (.plain (.namespaceDecl true ["Geo"] [
      .mk ⟨1, 24⟩ (.plain (.namespaceDecl false ["Plane"] [
        .mk ⟨2, 8⟩ (.plain (.variableDecl ⟨true, false,
          [.ident "origin" (some (.reference (.ident "Point") []))]⟩))]))])),
    .mk ⟨4, 1⟩ (.plain (.interfaceDecl ⟨"Point", [],
      [.property (.ident "x") false false (some (.keyword .number))]⟩))]

theorem planeFile_unwraps : Unwraps planeFile.items planeItems := by
  have hnamespace : Unwraps (planeFile.items.take 1) (planeItems.take 1) :=
    .trans (.unexport ⟨1, 1⟩ ⟨1, 8⟩ _)
      (.trans (.inNamespace ⟨1, 8⟩ false true ["Geo", "Plane"] (.unexport ⟨2, 1⟩ ⟨2, 8⟩ _))
        (.nest ⟨1, 8⟩ ⟨1, 24⟩ false false true false "Geo" "Plane" [] _))
  have hglobal : Unwraps (planeFile.items.drop 1) (planeItems.drop 1) :=
    .splice ⟨3, 1⟩ false _
  exact .append hnamespace hglobal

theorem Catalog.build_unwraps_plane :
    (Corpus.ofFiles [planeFile]).Unwraps
        (Corpus.ofFiles [planeFile.unwrapped planeFile_unwraps]) ∧
      ∃ catalog catalog', build (Corpus.ofFiles [planeFile]) {} = .ok catalog ∧
        build (Corpus.ofFiles [planeFile.unwrapped planeFile_unwraps]) {} = .ok catalog' ∧
        catalog'.records = catalog.records := by
  have h : (Corpus.ofFiles [planeFile]).Unwraps
      (Corpus.ofFiles [planeFile.unwrapped planeFile_unwraps]) :=
    .cons ⟨planeItems, planeFile_unwraps, rfl⟩ .nil
  exact ⟨h, build_unwraps {} h⟩

end AmbientCatalog
