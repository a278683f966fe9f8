import AmbientCatalog.Name
import AmbientCatalog.Syntax.Declarations

/-!
# The sites of a file

Statements are met one after the other: a namespace is entered with a longer scope, a global block
with the same one, and `export` is taken off. A site is a statement with the scope in which it is
met. The names that the sites of a parsed file declare are identifiers.
-/

set_option autoImplicit false

namespace AmbientCatalog

abbrev Nesting := String → List String → String

namespace Nesting

def joined : Nesting := fun scope parts => Name.qualify (".".intercalate parts) scope

def stepwise : Nesting := fun scope parts =>
  parts.foldl (fun inner part => Name.qualify part inner) scope

end Nesting

/-- A statement as the walk meets it. One that is neither empty nor a declaration has no
declaration; the declaration of a namespace is followed by the sites inside it. -/
structure Site where
  specifier : String
  scope : String
  start : Position
  decl? : Option Decl

mutual
def Decl.sites (nest : Nesting) (specifier scope : String) (start : Position) : Decl → List Site
  | .namespaceDecl isDeclared parts items =>
    ⟨specifier, scope, start, some (.namespaceDecl isDeclared parts items)⟩ ::
      sitesOf nest specifier (nest scope parts) items
  | .globalBlock items => sitesOf nest specifier scope items
  | .functionDecl decl => [⟨specifier, scope, start, some (.functionDecl decl)⟩]
  | .variableDecl decl => [⟨specifier, scope, start, some (.variableDecl decl)⟩]
  | .interfaceDecl decl => [⟨specifier, scope, start, some (.interfaceDecl decl)⟩]
  | .classDecl decl => [⟨specifier, scope, start, some (.classDecl decl)⟩]
  | .outsideModule => [⟨specifier, scope, start, some .outsideModule⟩]
  | .aliasDecl name type => [⟨specifier, scope, start, some (.aliasDecl name type)⟩]
  | .enumDecl => [⟨specifier, scope, start, some .enumDecl⟩]
  | .usingDecl => [⟨specifier, scope, start, some .usingDecl⟩]

def Content.sites (nest : Nesting) (specifier scope : String) (start : Position) :
    Content → List Site
  | .plain decl => decl.sites nest specifier scope start
  | .exported decl => decl.sites nest specifier scope start
  | .empty => []
  | .other => [⟨specifier, scope, start, none⟩]

def Item.sites (nest : Nesting) (specifier scope : String) : Item → List Site
  | .mk start content => content.sites nest specifier scope start

def sitesOf (nest : Nesting) (specifier scope : String) : List Item → List Site
  | [] => []
  | item :: items => item.sites nest specifier scope ++ sitesOf nest specifier scope items
end

def Declarator.name? : Declarator → Option String
  | .ident name _ => some name
  | .destructured => none

def Site.identifiers (site : Site) : List String :=
  match site.decl? with
  | some (.functionDecl decl) => [decl.name]
  | some (.variableDecl decl) => decl.declarators.filterMap Declarator.name?
  | some (.interfaceDecl decl) => [decl.name]
  | some (.classDecl decl) => [decl.name]
  | some (.namespaceDecl _ parts _) => parts
  | _ => []

def WellNamed (sites : List Site) : Prop :=
  ∀ site ∈ sites, ∀ name ∈ site.identifiers, Name.IsIdentifier name

instance (sites : List Site) : Decidable (WellNamed sites) :=
  inferInstanceAs (Decidable (∀ site ∈ sites, ∀ name ∈ site.identifiers, Name.IsIdentifier name))

theorem WellNamed.left {sites sites' : List Site} (h : WellNamed (sites ++ sites')) :
    WellNamed sites := fun site hs => h site (List.mem_append_left _ hs)

theorem WellNamed.right {sites sites' : List Site} (h : WellNamed (sites ++ sites')) :
    WellNamed sites' := fun site hs => h site (List.mem_append_right _ hs)

end AmbientCatalog
