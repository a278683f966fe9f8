import AmbientCatalog.Catalog
import AmbientCatalog.Proofs.Naming
import Mathlib.Data.List.Basic

/-!
# The walk through a corpus

Both the index and the survey walk through the same statements: namespaces are entered with a longer
scope, global blocks with the same one, and `export` is taken off. The statements met on the way are
the sites of a corpus, in order. The two walks make the scope inside a dotted namespace differently,
at once or part by part; since all declared names are identifiers, both give the same sites.
-/

set_option autoImplicit false

namespace AmbientCatalog

def fileSites (nest : Nesting) (files : List SourceFile) : List Site :=
  files.flatMap (fun file => sitesOf nest file.specifier "" file.items)

def Declarator.typed? (scope : String) : Declarator → Option (String × TypeExpr)
  | .ident name (some type) => some (Name.qualify name scope, type)
  | .ident _ none => none
  | .destructured => none

def TypeExpr.recordedName (type : TypeExpr) : String := type.simpleName?.getD complexTypeName

def numbered : Nat → List SourceFile → List SourceFile
  | _, [] => []
  | id, file :: files => { file with id := id } :: numbered (id + 1) files

theorem id_of_numbered (id : Nat) (files : List SourceFile) (k : Nat) (file : SourceFile)
    (h : (numbered id files)[k]? = some file) : file.id = id + k := by
  induction files generalizing id k with
  | nil => simp [numbered] at h
  | cons first files ih =>
    cases k with
    | zero =>
      obtain rfl : { first with id := id } = file := by simpa [numbered] using h
      rfl
    | succ k =>
      have hlater : file.id = id + 1 + k := ih (id + 1) k (by simpa [numbered] using h)
      omega

def Corpus.ofFiles (files : List SourceFile) : Corpus where
  files := numbered 0 files
  placed k file h := by simpa using id_of_numbered 0 files k file h

theorem fileSites_numbered (nest : Nesting) (id : Nat) (files : List SourceFile) :
    fileSites nest (numbered id files) = fileSites nest files := by
  induction files generalizing id with
  | nil => rfl
  | cons file files ih =>
    exact congrArg (sitesOf nest file.specifier "" file.items ++ ·) (ih (id + 1))

theorem Corpus.fileSites_ofFiles (nest : Nesting) (files : List SourceFile) :
    fileSites nest (Corpus.ofFiles files).files = fileSites nest files :=
  fileSites_numbered nest 0 files

theorem fileSites_append (nest : Nesting) (files files' : List SourceFile) :
    fileSites nest (files ++ files') = fileSites nest files ++ fileSites nest files' :=
  List.flatMap_append

namespace Site

def typedVariables (site : Site) : List (String × TypeExpr) :=
  match site.decl? with
  | some (.variableDecl decl) => decl.declarators.filterMap (Declarator.typed? site.scope)
  | _ => []

def typedFunctions (site : Site) : List (String × TypeExpr) :=
  match site.decl? with
  | some (.functionDecl decl) =>
    decl.signature.result.toList.map (fun type => (Name.qualify decl.name site.scope, type))
  | _ => []

def interfaces (site : Site) : List (String × InterfaceDecl) :=
  match site.decl? with
  | some (.interfaceDecl decl) => [(Name.qualify decl.name site.scope, decl)]
  | _ => []

def annotations (site : Site) : List (String × String) :=
  (site.typedFunctions ++ site.typedVariables).map (fun typed => (typed.1, typed.2.recordedName))

def typings (site : Site) : List (String × String) :=
  site.typedVariables.filterMap (fun typed => typed.2.simpleName?.map
    (fun typeName => (Name.qualify typeName site.scope, typed.1)))

theorem typedVariable_of_declarator {site : Site} {decl : VariableDecl}
    (hdecl : site.decl? = some (.variableDecl decl)) {declarator : Declarator}
    (hmem : declarator ∈ decl.declarators) {binding : String} {type : TypeExpr}
    (htype : declarator.typed? site.scope = some (binding, type)) :
    (binding, type) ∈ site.typedVariables := by
  rw [typedVariables, hdecl]
  exact List.mem_filterMap.mpr ⟨declarator, hmem, htype⟩

theorem recorded_of_typedVariable {site : Site} {binding : String} {type : TypeExpr}
    (htyped : (binding, type) ∈ site.typedVariables) :
    (binding, type.recordedName) ∈ site.annotations :=
  List.mem_map.mpr ⟨(binding, type), List.mem_append_right _ htyped, rfl⟩

end Site

theorem WellNamed.interface {sites : List Site} (h : WellNamed sites) {name : String}
    {decl : InterfaceDecl} (hmem : (name, decl) ∈ sites.flatMap Site.interfaces) :
    ∃ site ∈ sites, Name.IsIdentifier decl.name ∧ name = Name.qualify decl.name site.scope := by
  obtain ⟨⟨specifier, scope, start, decl?⟩, hsite, hin⟩ := List.mem_flatMap.mp hmem
  have hnames := h _ hsite
  cases decl? with
  | none => simp [Site.interfaces] at hin
  | some declared =>
    cases declared with
    | interfaceDecl other =>
      simp only [Site.interfaces, List.mem_singleton, Prod.mk.injEq] at hin
      obtain ⟨rfl, rfl⟩ := hin
      exact ⟨_, hsite, hnames _ (List.mem_singleton_self _), rfl⟩
    | _ => simp [Site.interfaces] at hin

theorem WellNamed.typedVariable {sites : List Site} (h : WellNamed sites) {site : Site}
    (hsite : site ∈ sites) {binding : String} {type : TypeExpr}
    (hmem : (binding, type) ∈ site.typedVariables) :
    ∃ name, Name.IsIdentifier name ∧ binding = Name.qualify name site.scope := by
  obtain ⟨specifier, scope, start, decl?⟩ := site
  have hnames := h _ hsite
  cases decl? with
  | none => simp [Site.typedVariables] at hmem
  | some declared =>
    cases declared with
    | variableDecl decl =>
      simp only [Site.typedVariables, List.mem_filterMap] at hmem
      obtain ⟨declarator, hin, htyped⟩ := hmem
      cases declarator with
      | destructured => simp [Declarator.typed?] at htyped
      | ident name type? =>
        have hident := hnames name (List.mem_filterMap.mpr ⟨_, hin, rfl⟩)
        cases type? with
        | none => simp [Declarator.typed?] at htyped
        | some annotated =>
          simp only [Declarator.typed?, Option.some.injEq, Prod.mk.injEq] at htyped
          exact ⟨name, hident, htyped.1.symm⟩
    | _ => simp [Site.typedVariables] at hmem

namespace Nesting

theorem intercalate_ne_empty {part : String} (hp : part ≠ "") (parts : List String) :
    ".".intercalate (part :: parts) ≠ "" := by
  cases parts with
  | nil => simpa using hp
  | cons next rest =>
    rw [String.intercalate_cons_cons]
    intro he
    have := congrArg String.length he
    simp at this

theorem intercalate_cons {part : String} (hp : part ≠ "") {parts : List String}
    (h : ∀ p ∈ parts, p ≠ "") :
    ".".intercalate (part :: parts) = Name.qualify (".".intercalate parts) part := by
  cases parts with
  | nil => simp
  | cons next rest =>
    have hrest := intercalate_ne_empty (h next List.mem_cons_self) rest
    rw [String.intercalate_cons_cons]
    simp [Name.qualify, hp, hrest]

theorem joined_eq_stepwise {parts : List String} (h : ∀ p ∈ parts, p ≠ "") (scope : String) :
    joined scope parts = stepwise scope parts := by
  induction parts generalizing scope with
  | nil => simp [joined, stepwise]
  | cons part parts ih =>
    have hp := h part List.mem_cons_self
    have hps : ∀ p ∈ parts, p ≠ "" := fun p hp => h p (List.mem_cons_of_mem _ hp)
    calc
      joined scope (part :: parts)
          = Name.qualify (Name.qualify (".".intercalate parts) part) scope := by
            rw [joined, intercalate_cons hp hps]
      _ = joined (Name.qualify part scope) parts := by rw [joined, Name.qualify_assoc]
      _ = stepwise scope (part :: parts) := ih hps _

end Nesting

mutual
theorem Decl.sites_joined (specifier scope : String) (start : Position) :
    ∀ decl : Decl, WellNamed (decl.sites .stepwise specifier scope start) →
      decl.sites .joined specifier scope start = decl.sites .stepwise specifier scope start
  | .namespaceDecl isDeclared parts items, h => by
    have hparts : ∀ p ∈ parts, p ≠ "" := fun p hp => (h _ List.mem_cons_self p hp).1
    rw [Decl.sites, Decl.sites, Nesting.joined_eq_stepwise hparts,
      sitesOf_joined specifier _ items (fun site hs => h site (List.mem_cons_of_mem _ hs))]
  | .globalBlock items, h => sitesOf_joined specifier scope items h
  | .functionDecl _, _ => rfl
  | .variableDecl _, _ => rfl
  | .interfaceDecl _, _ => rfl
  | .classDecl _, _ => rfl
  | .outsideModule, _ => rfl
  | .aliasDecl _ _, _ => rfl
  | .enumDecl, _ => rfl
  | .usingDecl, _ => rfl

theorem Content.sites_joined (specifier scope : String) (start : Position) :
    ∀ content : Content, WellNamed (content.sites .stepwise specifier scope start) →
      content.sites .joined specifier scope start = content.sites .stepwise specifier scope start
  | .plain decl, h => Decl.sites_joined specifier scope start decl h
  | .exported decl, h => Decl.sites_joined specifier scope start decl h
  | .empty, _ => rfl
  | .other, _ => rfl

theorem Item.sites_joined (specifier scope : String) :
    ∀ item : Item, WellNamed (item.sites .stepwise specifier scope) →
      item.sites .joined specifier scope = item.sites .stepwise specifier scope
  | .mk start content, h => Content.sites_joined specifier scope start content h

theorem sitesOf_joined (specifier scope : String) :
    ∀ items : List Item, WellNamed (sitesOf .stepwise specifier scope items) →
      sitesOf .joined specifier scope items = sitesOf .stepwise specifier scope items
  | [], _ => rfl
  | item :: items, h => by
    rw [sitesOf, sitesOf, Item.sites_joined specifier scope item h.left,
      sitesOf_joined specifier scope items h.right]
end

/-- What holds of a single site, is kept when lists are joined and is carried from the inside of a
namespace to the outside holds of the sites of all statements. -/
structure Compositional (Holds : String → List Site → Prop) : Prop where
  nothing : ∀ scope, Holds scope []
  joined : ∀ {scope sites sites'}, Holds scope sites → Holds scope sites' →
    Holds scope (sites ++ sites')
  single : ∀ specifier scope start decl?, Holds scope [⟨specifier, scope, start, decl?⟩]
  inside : ∀ {sites} specifier scope start isDeclared parts items,
    Holds (Nesting.stepwise scope parts) sites →
      Holds scope (⟨specifier, scope, start, some (.namespaceDecl isDeclared parts items)⟩ :: sites)

namespace Compositional

variable {Holds : String → List Site → Prop}

mutual
theorem ofDecl (h : Compositional Holds) (specifier scope : String) (start : Position) :
    ∀ decl : Decl, Holds scope (decl.sites .stepwise specifier scope start)
  | .namespaceDecl isDeclared parts items => by
    rw [Decl.sites]
    exact h.inside specifier scope start isDeclared parts items (ofItems h specifier _ items)
  | .globalBlock items => by
    rw [Decl.sites]
    exact ofItems h specifier scope items
  | .functionDecl _ => h.single _ _ _ _
  | .variableDecl _ => h.single _ _ _ _
  | .interfaceDecl _ => h.single _ _ _ _
  | .classDecl _ => h.single _ _ _ _
  | .outsideModule => h.single _ _ _ _
  | .aliasDecl _ _ => h.single _ _ _ _
  | .enumDecl => h.single _ _ _ _
  | .usingDecl => h.single _ _ _ _

theorem ofContent (h : Compositional Holds) (specifier scope : String) (start : Position) :
    ∀ content : Content, Holds scope (content.sites .stepwise specifier scope start)
  | .plain decl => ofDecl h specifier scope start decl
  | .exported decl => ofDecl h specifier scope start decl
  | .empty => h.nothing scope
  | .other => h.single _ _ _ _

theorem ofItem (h : Compositional Holds) (specifier scope : String) :
    ∀ item : Item, Holds scope (item.sites .stepwise specifier scope)
  | .mk start content => ofContent h specifier scope start content

theorem ofItems (h : Compositional Holds) (specifier scope : String) :
    ∀ items : List Item, Holds scope (sitesOf .stepwise specifier scope items)
  | [] => h.nothing scope
  | item :: items => by
    rw [sitesOf]
    exact h.joined (ofItem h specifier scope item) (ofItems h specifier scope items)
end

theorem ofFiles (h : Compositional Holds) (files : List SourceFile) :
    Holds "" (fileSites .stepwise files) := by
  induction files with
  | nil => exact h.nothing ""
  | cons file files ih => exact h.joined (h.ofItems file.specifier "" file.items) ih

end Compositional

theorem wellNamed_fileSites (files : List SourceFile) : WellNamed (fileSites .stepwise files) := by
  intro site hsite
  obtain ⟨file, -, hin⟩ := List.mem_flatMap.mp hsite
  exact file.named site hin

theorem fileSites_joined (files : List SourceFile) :
    fileSites .joined files = fileSites .stepwise files := by
  induction files with
  | nil => rfl
  | cons file files ih =>
    have hcons : ∀ nest, fileSites nest (file :: files) =
        sitesOf nest file.specifier "" file.items ++ fileSites nest files := fun _ => rfl
    rw [hcons, hcons, sitesOf_joined _ _ _ file.named, ih]

end AmbientCatalog
