import AmbientCatalog.Proofs.Instances
import AmbientCatalog.Proofs.Ownership

/-!
# Roots of names

The root of a dotted name is its first part. A name that is joined to a scope has the root of the
scope, and so have the scopes around it; in the outermost scope a name has its own root. So whatever
a corpus declares or looks up has the root of one of its declarations or of a name that it writes.
Two lists of sites are unrelated if neither declares a root that the other one has.
-/

set_option autoImplicit false

namespace AmbientCatalog

namespace Name

def root (name : String) : String := String.ofList (name.toList.takeWhile (fun c => c ≠ '.'))

def Apart (away : List String) (name : String) : Prop := root name ∉ away

def ScopeApart (away : List String) (scope : String) : Prop := scope ≠ "" → Apart away scope

theorem takeWhile_dot (front rest : List Char) :
    (front ++ '.' :: rest).takeWhile (fun c => c ≠ '.') = front.takeWhile (fun c => c ≠ '.') := by
  induction front with
  | nil => simp
  | cons c front ih =>
    by_cases hc : c = '.'
    · simp [hc]
    · simpa [hc] using ih

theorem root_eq_of_dot {name outer : String} {rest : List Char}
    (h : name.toList = outer.toList ++ '.' :: rest) : root name = root outer := by
  rw [root, h, takeWhile_dot, root]

theorem root_qualify {scope : String} (h : scope ≠ "") (name : String) :
    root (qualify name scope) = root scope := by
  by_cases hn : name = ""
  · simp [hn]
  · exact root_eq_of_dot (toList_qualify hn h)

theorem Within.root_eq {outer name : String} (h : Within outer name) : root name = root outer := by
  rcases h with rfl | ⟨rest, h⟩
  · rfl
  · have hdot : name.toList = outer.toList ++ '.' :: rest := by simp [← h]
    exact root_eq_of_dot hdot

theorem beforeLastDot_eq_some {cs front : List Char} (h : beforeLastDot cs = some front) :
    ∃ rest, cs = front ++ '.' :: rest := by
  induction cs generalizing front with
  | nil => simp [beforeLastDot] at h
  | cons c cs ih =>
    rw [beforeLastDot] at h
    cases hcs : beforeLastDot cs with
    | some inner =>
      obtain ⟨rest, rfl⟩ := ih hcs
      obtain rfl : c :: inner = front := by simpa [hcs] using h
      exact ⟨rest, rfl⟩
    | none =>
      obtain ⟨rfl, rfl⟩ : c = '.' ∧ front = [] := by simpa [hcs, eq_comm] using h
      exact ⟨cs, rfl⟩

theorem root_parent (name : String) : parent name = "" ∨ root (parent name) = root name := by
  unfold parent
  cases h : beforeLastDot name.toList with
  | none => exact .inl rfl
  | some front =>
    obtain ⟨rest, hrest⟩ := beforeLastDot_eq_some h
    have hdot : name.toList = (String.ofList front).toList ++ '.' :: rest := by simpa using hrest
    exact .inr (root_eq_of_dot hdot).symm

section Apart

variable {away : List String} {name scope : String}

theorem Apart.qualify (hn : Apart away name) (hs : ScopeApart away scope) :
    Apart away (qualify name scope) := by
  by_cases h : scope = ""
  · simpa [h] using hn
  · rw [Apart, root_qualify h]
    exact hs h

theorem Apart.parent (h : Apart away name) : ScopeApart away (parent name) := by
  intro hne
  rcases root_parent name with he | he
  · exact absurd he hne
  · rwa [Apart, he]

theorem ScopeApart.enclosing (h : ScopeApart away scope) :
    ∀ outer ∈ enclosing scope, ScopeApart away outer := by
  induction scope using enclosing.induct with
  | case1 =>
    rw [Name.enclosing]
    simpa using h
  | case2 scope hne ih =>
    rw [Name.enclosing, if_neg hne]
    intro outer houter
    rcases List.mem_cons.mp houter with rfl | houter
    · exact h
    · exact ih (h hne).parent outer houter

end Apart

end Name

def InterfaceDecl.references (decl : InterfaceDecl) : List String :=
  decl.bases.filterMap Expr.entityText ++ decl.members.filterMap Member.builtName?

namespace Site

def declared (site : Site) : List String := site.owners ++ site.interfaces.map Prod.fst

def references (site : Site) : List String :=
  (site.typedFunctions ++ site.typedVariables).filterMap (fun typed => typed.2.simpleName?) ++
    site.interfaces.flatMap (fun declared => declared.2.references)

end Site

def rootsOf (sites : List Site) : List String :=
  sites.flatMap (fun site => site.declared.map Name.root)

def refsOf (sites : List Site) : List String :=
  Name.root complexTypeName :: sites.flatMap (fun site => site.references.map Name.root)

/-- Neither list of sites declares a root that the other one declares or looks up. -/
def Unrelated (sites sites' : List Site) : Prop :=
  (∀ root ∈ rootsOf sites, root ∉ rootsOf sites' ∧ root ∉ refsOf sites') ∧
    ∀ root ∈ rootsOf sites', root ∉ refsOf sites

instance (sites sites' : List Site) : Decidable (Unrelated sites sites') :=
  inferInstanceAs (Decidable ((∀ root ∈ rootsOf sites, root ∉ rootsOf sites' ∧
    root ∉ refsOf sites') ∧ ∀ root ∈ rootsOf sites', root ∉ refsOf sites))

theorem Unrelated.symm {sites sites' : List Site} (h : Unrelated sites sites') :
    Unrelated sites' sites :=
  ⟨fun root hroot => ⟨fun hother => (h.1 root hother).1 hroot, h.2 root hroot⟩,
    fun root hroot => (h.1 root hroot).2⟩

theorem mem_rootsOf {sites : List Site} {site : Site} (hsite : site ∈ sites) {name : String}
    (h : name ∈ site.declared) : Name.root name ∈ rootsOf sites :=
  List.mem_flatMap.mpr ⟨site, hsite, List.mem_map_of_mem h⟩

theorem mem_refsOf {sites : List Site} {site : Site} (hsite : site ∈ sites) {name : String}
    (h : name ∈ site.references) : Name.root name ∈ refsOf sites :=
  List.mem_cons_of_mem _ (List.mem_flatMap.mpr ⟨site, hsite, List.mem_map_of_mem h⟩)

def ScopesDeclared (outer : String) (sites : List Site) : Prop :=
  ∀ site ∈ sites, site.scope = outer ∨ ∃ around ∈ sites, site.scope ∈ around.owners

namespace ScopesDeclared

variable {outer : String} {sites sites' : List Site}

theorem append (h : ScopesDeclared outer sites) (h' : ScopesDeclared outer sites') :
    ScopesDeclared outer (sites ++ sites') := by
  intro site hsite
  rcases List.mem_append.mp hsite with hsite | hsite
  · refine (h site hsite).imp_right ?_
    exact fun ⟨around, haround, hscope⟩ => ⟨around, List.mem_append_left _ haround, hscope⟩
  · refine (h' site hsite).imp_right ?_
    exact fun ⟨around, haround, hscope⟩ => ⟨around, List.mem_append_right _ haround, hscope⟩

theorem singleton (specifier : String) (start : Position) (decl? : Option Decl) :
    ScopesDeclared outer [⟨specifier, outer, start, decl?⟩] := by
  intro site hsite
  exact .inl (by rw [List.mem_singleton.mp hsite])

theorem inNamespace (specifier : String) (start : Position) (isDeclared : Bool)
    (parts : List String) (items : List Item)
    (h : ScopesDeclared (Nesting.stepwise outer parts) sites) :
    ScopesDeclared outer
      (⟨specifier, outer, start, some (.namespaceDecl isDeclared parts items)⟩ :: sites) := by
  intro site hsite
  rcases List.mem_cons.mp hsite with rfl | hsite
  · exact .inl rfl
  · rcases h site hsite with hscope | ⟨around, haround, hscope⟩
    · rcases stepwise_mem_namespacesIn outer parts with heq | hmem
      · exact .inl (hscope.trans heq)
      · exact .inr ⟨_, List.mem_cons_self, hscope ▸ hmem⟩
    · exact .inr ⟨around, List.mem_cons_of_mem _ haround, hscope⟩

end ScopesDeclared

theorem scopesDeclared_compositional : Compositional ScopesDeclared where
  nothing := by simp [ScopesDeclared]
  joined := .append
  single := fun specifier _ => .singleton specifier
  inside := fun specifier _ => .inNamespace specifier

theorem fileSites_scopes (files : List SourceFile) :
    ScopesDeclared "" (fileSites .stepwise files) :=
  scopesDeclared_compositional.ofFiles files

structure Site.Apart (away : List String) (site : Site) : Prop where
  scope : Name.ScopeApart away site.scope
  declared : ∀ name ∈ site.declared, Name.Apart away name
  references : ∀ name ∈ site.references, Name.Apart away name

theorem Unrelated.apart {sites sites' : List Site} (h : Unrelated sites sites')
    (hscopes : ScopesDeclared "" sites) {site : Site} (hsite : site ∈ sites) :
    site.Apart (rootsOf sites') where
  scope := by
    intro hne
    rcases hscopes site hsite with hempty | ⟨around, haround, howner⟩
    · exact absurd hempty hne
    · exact (h.1 _ (mem_rootsOf haround (List.mem_append_left _ howner))).1
  declared := fun name hname => (h.1 _ (mem_rootsOf hsite hname)).1
  references := fun name hname hroot => h.2 _ hroot (mem_refsOf hsite hname)

end AmbientCatalog
