import AmbientCatalog.Proofs.InlinePlans
import AmbientCatalog.Proofs.Wrappers

/-!
# Naming inline types

An inline type can be given a name: an interface with its members is declared just before the
statement of the variable, and the variable is declared with the name. Then the variable and the
interface find each other through the index, where before the members were described on the spot.
The new statement moves what comes after it, so positions are left out of the comparison.
-/

set_option autoImplicit false

namespace AmbientCatalog

mutual
def Decl.unplaced : Decl → Decl
  | .namespaceDecl isDeclared parts items => .namespaceDecl isDeclared parts (unplacedAll items)
  | .globalBlock items => .globalBlock (unplacedAll items)
  | .functionDecl decl => .functionDecl decl
  | .variableDecl decl => .variableDecl decl
  | .interfaceDecl decl => .interfaceDecl decl
  | .classDecl decl => .classDecl decl
  | .outsideModule => .outsideModule
  | .aliasDecl name type => .aliasDecl name type
  | .enumDecl => .enumDecl
  | .usingDecl => .usingDecl

def Content.unplaced : Content → Content
  | .plain decl => .plain decl.unplaced
  | .exported decl => .exported decl.unplaced
  | .empty => .empty
  | .other => .other

def Item.unplaced : Item → Item
  | .mk _ content => .mk ⟨0, 0⟩ content.unplaced

def unplacedAll : List Item → List Item
  | [] => []
  | item :: items => item.unplaced :: unplacedAll items
end

namespace Site

def bare (site : Site) : Site :=
  match site.decl? with
  | some (.namespaceDecl isDeclared parts _) =>
    ⟨"", site.scope, ⟨0, 0⟩, some (.namespaceDecl isDeclared parts [])⟩
  | decl? => ⟨"", site.scope, ⟨0, 0⟩, decl?⟩

/-- Enough for reading from a bare site: the place does not matter, and what stands inside a
namespace does not matter. -/
theorem read_bare {α : Type} (read : Site → α)
    (hplace : ∀ specifier scope start decl?,
      read ⟨"", scope, ⟨0, 0⟩, decl?⟩ = read ⟨specifier, scope, start, decl?⟩)
    (hinside : ∀ scope isDeclared parts items,
      read ⟨"", scope, ⟨0, 0⟩, some (.namespaceDecl isDeclared parts [])⟩ =
        read ⟨"", scope, ⟨0, 0⟩, some (.namespaceDecl isDeclared parts items)⟩) (site : Site) :
    read site.bare = read site := by
  obtain ⟨specifier, scope, start, decl?⟩ := site
  cases decl? with
  | none => exact hplace ..
  | some decl =>
    cases decl with
    | namespaceDecl isDeclared parts items => exact (hinside ..).trans (hplace ..)
    | _ => exact hplace ..

section Reading

variable (site : Site)

theorem bare_scope : site.bare.scope = site.scope :=
  site.read_bare scope (fun _ _ _ _ => rfl) (fun _ _ _ _ => rfl)

theorem bare_identifiers : site.bare.identifiers = site.identifiers :=
  site.read_bare identifiers (fun _ _ _ _ => rfl) (fun _ _ _ _ => rfl)

theorem bare_annotations : site.bare.annotations = site.annotations :=
  site.read_bare annotations (fun _ _ _ _ => rfl) (fun _ _ _ _ => rfl)

theorem bare_typings : site.bare.typings = site.typings :=
  site.read_bare typings (fun _ _ _ _ => rfl) (fun _ _ _ _ => rfl)

theorem bare_interfaces : site.bare.interfaces = site.interfaces :=
  site.read_bare interfaces (fun _ _ _ _ => rfl) (fun _ _ _ _ => rfl)

theorem bare_owners : site.bare.owners = site.owners :=
  site.read_bare owners (fun _ _ _ _ => rfl) (fun _ _ _ _ => rfl)

theorem bare_references : site.bare.references = site.references :=
  site.read_bare references (fun _ _ _ _ => rfl) (fun _ _ _ _ => rfl)

theorem bare_stepsAt (s : Setting) : s.stepsAt site.bare = s.stepsAt site :=
  site.read_bare s.stepsAt (fun _ _ _ _ => rfl) (fun _ _ _ _ => rfl)

end Reading

theorem flatMap_bare {α : Type} {read : Site → List α}
    (h : ∀ site : Site, read site.bare = read site) (sites : List Site) :
    (sites.map bare).flatMap read = sites.flatMap read := by
  rw [List.flatMap_map]
  exact List.flatMap_congr fun site _ => h site

end Site

section Bare

variable {sites : List Site}

theorem Index.IsOf.bare {index : Index} (h : index.IsOf sites) :
    index.IsOf (sites.map Site.bare) where
  declared := by rw [Site.flatMap_bare Site.bare_annotations, h.declared]
  typed := by rw [Site.flatMap_bare Site.bare_typings, h.typed]
  constructs := by rw [Site.flatMap_bare Site.bare_interfaces]; exact h.constructs
  interfaces := by rw [Site.flatMap_bare Site.bare_interfaces]; exact h.interfaces

theorem WellNamed.bare (h : WellNamed sites) : WellNamed (sites.map Site.bare) := by
  intro site hsite
  obtain ⟨full, hfull, rfl⟩ := List.mem_map.mp hsite
  rw [full.bare_identifiers]
  exact h full hfull

theorem ScopesDeclared.bare (h : ScopesDeclared "" sites) :
    ScopesDeclared "" (sites.map Site.bare) := by
  intro site hsite
  obtain ⟨full, hfull, rfl⟩ := List.mem_map.mp hsite
  rw [full.bare_scope]
  refine (h full hfull).imp_right ?_
  rintro ⟨around, haround, hscope⟩
  exact ⟨around.bare, List.mem_map_of_mem haround, around.bare_owners ▸ hscope⟩

theorem Unused.bare {word : String} (h : Unused word sites) :
    Unused word (sites.map Site.bare) := by
  intro site hsite
  obtain ⟨full, hfull, rfl⟩ := List.mem_map.mp hsite
  rw [Site.declared, full.bare_owners, full.bare_interfaces, full.bare_references]
  exact h full hfull

end Bare

mutual
theorem Decl.bare_unplaced (specifier scope : String) (start start' : Position) :
    ∀ decl : Decl, (decl.unplaced.sites .stepwise specifier scope start').map Site.bare =
      (decl.sites .stepwise specifier scope start).map Site.bare
  | .namespaceDecl isDeclared parts items => by
    rw [Decl.unplaced, Decl.sites, Decl.sites, List.map_cons, List.map_cons,
      bare_unplacedAll specifier (Nesting.stepwise scope parts) items]
    rfl
  | .globalBlock items => by
    rw [Decl.unplaced, Decl.sites, Decl.sites, bare_unplacedAll specifier scope items]
  | .functionDecl _ => rfl
  | .variableDecl _ => rfl
  | .interfaceDecl _ => rfl
  | .classDecl _ => rfl
  | .outsideModule => rfl
  | .aliasDecl _ _ => rfl
  | .enumDecl => rfl
  | .usingDecl => rfl

theorem Content.bare_unplaced (specifier scope : String) (start start' : Position) :
    ∀ content : Content, (content.unplaced.sites .stepwise specifier scope start').map Site.bare =
      (content.sites .stepwise specifier scope start).map Site.bare
  | .plain decl => Decl.bare_unplaced specifier scope start start' decl
  | .exported decl => Decl.bare_unplaced specifier scope start start' decl
  | .empty => rfl
  | .other => rfl

theorem Item.bare_unplaced (specifier scope : String) :
    ∀ item : Item, (item.unplaced.sites .stepwise specifier scope).map Site.bare =
      (item.sites .stepwise specifier scope).map Site.bare
  | .mk start content => Content.bare_unplaced specifier scope start ⟨0, 0⟩ content

theorem bare_unplacedAll (specifier scope : String) :
    ∀ items : List Item, (sitesOf .stepwise specifier scope (unplacedAll items)).map Site.bare =
      (sitesOf .stepwise specifier scope items).map Site.bare
  | [] => rfl
  | item :: items => by
    rw [unplacedAll, sitesOf, sitesOf, List.map_append, List.map_append,
      Item.bare_unplaced specifier scope item, bare_unplacedAll specifier scope items]
end

/-- The second list of statements is the first one with the inline type of a variable named: an
interface with its members stands just before the variable, which is declared with a reference to
it. -/
inductive NamesLiteral (v : InlineVariable) (word : String) : String → List Item → List Item → Prop
  | here (start inserted : Position) (isExported isExported' : Bool) :
      NamesLiteral v word v.scope
        [.mk start (.holding isExported (.variableDecl v.inline))]
        [.mk inserted (.holding isExported' (.interfaceDecl (v.interfaceDecl word))),
          .mk start (.holding isExported (.variableDecl (v.named word)))]
  | inNamespace (start : Position) (isExported isDeclared : Bool) {scope : String}
      (parts : List String) {items items' : List Item}
      (h : NamesLiteral v word (Nesting.stepwise scope parts) items items') :
      NamesLiteral v word scope
        [.mk start (.holding isExported (.namespaceDecl isDeclared parts items))]
        [.mk start (.holding isExported (.namespaceDecl isDeclared parts items'))]
  | inGlobal (start : Position) (isExported : Bool) {scope : String} {items items' : List Item}
      (h : NamesLiteral v word scope items items') :
      NamesLiteral v word scope [.mk start (.holding isExported (.globalBlock items))]
        [.mk start (.holding isExported (.globalBlock items'))]
  | among (before after : List Item) {scope : String} {items items' : List Item}
      (h : NamesLiteral v word scope items items') :
      NamesLiteral v word scope (before ++ items ++ after) (before ++ items' ++ after)
  | moved {scope : String} {items items' items'' : List Item}
      (h : NamesLiteral v word scope items items')
      (hsame : unplacedAll items' = unplacedAll items'') :
      NamesLiteral v word scope items items''

/-- The two lists of statements have the same bare sites around the variable. -/
theorem NamesLiteral.bareSites {v : InlineVariable} {word scope : String}
    {items items' : List Item} (h : NamesLiteral v word scope items items') (specifier : String) :
    ∃ before after,
      (sitesOf .stepwise specifier scope items).map Site.bare =
        before ++ v.inlineSites ++ after ∧
      (sitesOf .stepwise specifier scope items').map Site.bare =
        before ++ v.namedSites word ++ after := by
  induction h with
  | here start inserted isExported isExported' =>
    refine ⟨[], [], ?_, ?_⟩
    · rw [sitesOf_singleton, Content.sites_holding]
      rfl
    · rw [sitesOf, sitesOf_singleton, Item.sites, Content.sites_holding, Content.sites_holding]
      rfl
  | @inNamespace start isExported isDeclared scope parts items items' h ih =>
    obtain ⟨before, after, hinline, hnamed⟩ := ih
    refine ⟨⟨"", scope, ⟨0, 0⟩, some (.namespaceDecl isDeclared parts [])⟩ :: before, after, ?_, ?_⟩
    · rw [sitesOf_singleton, Content.sites_holding, Decl.sites, List.map_cons, hinline]
      rfl
    · rw [sitesOf_singleton, Content.sites_holding, Decl.sites, List.map_cons, hnamed]
      rfl
  | inGlobal start isExported h ih =>
    obtain ⟨before, after, hinline, hnamed⟩ := ih
    refine ⟨before, after, ?_, ?_⟩
    · rw [sitesOf_singleton, Content.sites_holding, Decl.sites, hinline]
    · rw [sitesOf_singleton, Content.sites_holding, Decl.sites, hnamed]
  | @among first last scope items items' h ih =>
    obtain ⟨before, after, hinline, hnamed⟩ := ih
    refine ⟨(sitesOf .stepwise specifier scope first).map Site.bare ++ before,
      after ++ (sitesOf .stepwise specifier scope last).map Site.bare, ?_, ?_⟩
    · simp only [sitesOf_append, List.map_append, hinline, List.append_assoc]
    · simp only [sitesOf_append, List.map_append, hnamed, List.append_assoc]
  | @moved scope items items' items'' h hsame ih =>
    obtain ⟨before, after, hinline, hnamed⟩ := ih
    refine ⟨before, after, hinline, ?_⟩
    rw [← bare_unplacedAll, ← hsame, bare_unplacedAll, hnamed]

namespace Corpus

/-- The second corpus is the first one with an inline type named in one of its files. -/
def NamesLiteral (corpus corpus' : Corpus) (v : InlineVariable) (word : String) : Prop :=
  ∃ (files files' : List SourceFile) (file : SourceFile) (items : List Item)
    (named : WellNamed (sitesOf .stepwise file.specifier "" items)),
    corpus.files = files ++ file :: files' ∧
    corpus'.files = files ++ { file with items := items, named := named } :: files' ∧
    AmbientCatalog.NamesLiteral v word "" file.items items

theorem NamesLiteral.bareSites {corpus corpus' : Corpus} {v : InlineVariable} {word : String}
    (h : corpus.NamesLiteral corpus' v word) : ∃ before after,
      (fileSites .stepwise corpus.files).map Site.bare = before ++ v.inlineSites ++ after ∧
      (fileSites .stepwise corpus'.files).map Site.bare = before ++ v.namedSites word ++ after := by
  obtain ⟨files, files', file, items, named, hfiles, hfiles', hitems⟩ := h
  obtain ⟨before, after, hinline, hnamed⟩ := hitems.bareSites file.specifier
  have hcons : ∀ (first : SourceFile) rest, fileSites .stepwise (first :: rest) =
      sitesOf .stepwise first.specifier "" first.items ++ fileSites .stepwise rest := fun _ _ => rfl
  refine ⟨(fileSites .stepwise files).map Site.bare ++ before,
    after ++ (fileSites .stepwise files').map Site.bare, ?_, ?_⟩
  · rw [hfiles, fileSites_append, hcons, List.map_append, List.map_append, hinline]
    simp only [List.append_assoc]
  · rw [hfiles', fileSites_append, hcons, List.map_append, List.map_append, hnamed]
    simp only [List.append_assoc]

def TypesOnce (corpus : Corpus) (name : String) : Prop :=
  ((fileSites .stepwise corpus.files).flatMap Site.annotations).countP
    (fun declared => declared.1 = name) = 1

instance (corpus : Corpus) (name : String) : Decidable (corpus.TypesOnce name) :=
  inferInstanceAs (Decidable (_ = 1))

end Corpus

namespace Catalog

theorem IsOf.bare {catalog : Catalog} {s : Setting} {sites : List Site} (h : catalog.IsOf s sites) :
    (∀ name, name ∈ catalog.registry.names ↔
      ∃ node, s.Emits [] ((sites.map Site.bare).flatMap s.stepsAt) node ∧
        node.isPlaceholder = false ∧ node.id = name) ∧
    ∀ name record, record ∈ catalog.recordsOf name ↔
      ∃ node, s.Emits [] ((sites.map Site.bare).flatMap s.stepsAt) node ∧
        node.isPlaceholder = false ∧ node.id = name ∧ node.record = record := by
  rw [Site.flatMap_bare (fun site => site.bare_stepsAt s)]
  exact ⟨h.names, h.records⟩

/-- Where the inline type of a variable, beside the interface with the variable's name, becomes an
interface with an unused name, the catalogs without the members of `Object` have the same names and
the same records of each name. -/
theorem build_named {options : Options} {corpus corpus' : Corpus} {v : InlineVariable}
    {word : String} (h : corpus.NamesLiteral corpus' v word)
    (hunused : Unused word (fileSites .stepwise corpus.files))
    (honce : corpus.TypesOnce v.binding) (hown : corpus.index.hasInterface v.binding = true)
    (hname : v.name ≠ complexTypeName) (hoff : options.objectHeritage = false) :
    ∃ catalog catalog', build corpus options = .ok catalog ∧
      build corpus' options = .ok catalog' ∧
      (∀ name, name ∈ catalog.registry.names ↔ name ∈ catalog'.registry.names) ∧
      ∀ name record, record ∈ catalog.recordsOf name ↔ record ∈ catalog'.recordsOf name := by
  obtain ⟨before, after, hinline, hnamed⟩ := h.bareSites
  have hword : Name.IsIdentifier word := by
    have hnames := (wellNamed_fileSites corpus'.files).bare
    rw [hnamed] at hnames
    exact hnames _ (List.mem_append_left _ (List.mem_append_right _ List.mem_cons_self)) word
      (List.mem_singleton_self word)
  have hnames : v.Naming word corpus.filedIndex corpus'.filedIndex before after := {
    inline := hinline ▸ corpus.index_isOf.bare
    named := hnamed ▸ corpus'.index_isOf.bare
    wellNamed := hinline ▸ (wellNamed_fileSites corpus.files).bare
    scopes := hinline ▸ (fileSites_scopes corpus.files).bare
    identifier := hword
    unused := hinline ▸ hunused.bare
    once := by
      rw [← hinline, Site.flatMap_bare Site.bare_annotations]
      exact honce
    own := hown
    complex := hname }
  obtain ⟨catalog, hbuild, hcatalog⟩ := build_isOf corpus options
  obtain ⟨catalog', hbuild', hcatalog'⟩ := build_isOf corpus' options
  obtain ⟨hids, hrecords⟩ := hcatalog.bare
  obtain ⟨hids', hrecords'⟩ := hcatalog'.bare
  rw [hinline] at hids hrecords
  rw [hnamed] at hids' hrecords'
  refine ⟨catalog, catalog', hbuild, hbuild', fun name => ?_, fun name record => ?_⟩
  · rw [hids, hids']
    simp only [hnames.emits_iff options hoff]
  · rw [hrecords, hrecords']
    simp only [hnames.emits_iff options hoff]

end Catalog

def boxVariable : InlineVariable :=
  { scope := "Shapes"
    isConst := true
    isDeclared := false
    before := []
    name := "Box"
    members := [.construct (.mk [] [] (some (.reference (.ident "Box") []))),
      .property (.ident "unit") false true (some (.keyword .string))]
    after := [.ident "count" (some (.keyword .number))] }

def boxInterface : Item :=
  .mk ⟨2, 1⟩ (.plain (.interfaceDecl ⟨"Box", [],
    [.property (.ident "width") false false (some (.keyword .number))]⟩))

def boxFile : SourceFile :=
  { id := 0
    specifier := "file:///box.d.ts"
    mediaType := .dts
    items := [
      .mk ⟨1, 1⟩ (.plain (.namespaceDecl true ["Shapes"] [
        boxInterface,
        .mk ⟨3, 1⟩ (.plain (.variableDecl boxVariable.inline))])),
      .mk ⟨5, 1⟩ (.plain .enumDecl)]
    named := by decide }

def namedBoxFile : SourceFile :=
  { boxFile with
    items := [
      .mk ⟨1, 1⟩ (.plain (.namespaceDecl true ["Shapes"] [
        boxInterface,
        .mk ⟨3, 1⟩ (.plain (.interfaceDecl (boxVariable.interfaceDecl "BoxConstructor"))),
        .mk ⟨4, 1⟩ (.plain (.variableDecl (boxVariable.named "BoxConstructor")))])),
      .mk ⟨6, 1⟩ (.plain .enumDecl)]
    named := by decide }

theorem boxFile_named :
    NamesLiteral boxVariable "BoxConstructor" "" boxFile.items namedBoxFile.items := by
  have hinside : NamesLiteral boxVariable "BoxConstructor" (Nesting.stepwise "" ["Shapes"]) _ _ :=
    .among [boxInterface] [] (.here ⟨3, 1⟩ ⟨3, 1⟩ false false)
  have hnamespace : NamesLiteral boxVariable "BoxConstructor" "" _ _ :=
    .inNamespace ⟨1, 1⟩ false true ["Shapes"] hinside
  exact .moved (.among [] [.mk ⟨5, 1⟩ (.plain .enumDecl)] hnamespace) rfl

theorem Catalog.build_named_box :
    (Corpus.ofFiles [boxFile]).NamesLiteral (Corpus.ofFiles [namedBoxFile]) boxVariable
        "BoxConstructor" ∧
      ∃ catalog catalog',
        build (Corpus.ofFiles [boxFile]) { objectHeritage := false } = .ok catalog ∧
        build (Corpus.ofFiles [namedBoxFile]) { objectHeritage := false } = .ok catalog' ∧
        (∀ name, name ∈ catalog.registry.names ↔ name ∈ catalog'.registry.names) ∧
        ∀ name record, record ∈ catalog.recordsOf name ↔ record ∈ catalog'.recordsOf name := by
  have h : (Corpus.ofFiles [boxFile]).NamesLiteral (Corpus.ofFiles [namedBoxFile]) boxVariable
      "BoxConstructor" :=
    ⟨[], [], boxFile, namedBoxFile.items, namedBoxFile.named, rfl, rfl, boxFile_named⟩
  exact ⟨h, build_named h (by decide) (by decide) (by decide) (by decide) rfl⟩

end AmbientCatalog
