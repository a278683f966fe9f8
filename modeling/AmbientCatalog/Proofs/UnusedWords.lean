import AmbientCatalog.Proofs.Isolation

/-!
# Words that a corpus does not use

A dotted name is made of words. Joining a name to a scope puts their words together, and the scopes
around a scope have no words of their own. So where no statement declares or looks up a name with a
certain word, the word is in no scope, and whatever is looked up is found without it.
-/

set_option autoImplicit false

namespace AmbientCatalog

namespace Name

def words (name : String) : List String := (name.toList.splitOn '.').map String.ofList

def Without (word name : String) : Prop := word ∉ words name

instance (word name : String) : Decidable (Without word name) :=
  inferInstanceAs (Decidable (word ∉ words name))

theorem words_identifier {name : String} (h : IsIdentifier name) : words name = [name] := by
  have hsplit : name.toList.splitOn '.' = [name.toList] :=
    List.splitOn_eq_singleton h.2
  simp [words, hsplit]

theorem words_dot {name front : String} {rest : List Char}
    (h : name.toList = front.toList ++ '.' :: rest) :
    words name = words front ++ words (String.ofList rest) := by
  simp [words, h, List.splitOn_append_cons_self]

theorem words_qualify {name scope : String} (hn : name ≠ "") (hs : scope ≠ "") :
    words (qualify name scope) = words scope ++ words name := by
  rw [words_dot (toList_qualify hn hs), String.ofList_toList]

section Without

variable {word name scope : String}

theorem Without.qualify (hn : Without word name) (hs : Without word scope) :
    Without word (qualify name scope) := by
  by_cases hne : name = ""
  · rwa [hne, qualify_empty]
  by_cases hse : scope = ""
  · rwa [hse, qualify_outermost]
  rw [Without, words_qualify hne hse, List.mem_append]
  exact not_or.mpr ⟨hs, hn⟩

theorem without_empty (hw : word ≠ "") : Without word "" := by
  simpa [Without, words, List.splitOn_nil] using hw

theorem Without.of_qualify (hw : word ≠ "") (h : Without word (Name.qualify name scope)) :
    Without word name := by
  by_cases hne : name = ""
  · rw [hne]
    exact without_empty hw
  by_cases hse : scope = ""
  · rwa [hse, qualify_outermost] at h
  rw [Without, words_qualify hne hse, List.mem_append] at h
  exact (not_or.mp h).2

theorem not_without_qualify (hw : IsIdentifier word) (scope : String) :
    ¬Without word (Name.qualify word scope) := by
  intro h
  have hself := h.of_qualify hw.1
  rw [Without, words_identifier hw] at hself
  exact hself List.mem_cons_self

theorem Without.parent (hw : word ≠ "") (h : Without word name) : Without word (parent name) := by
  unfold Name.parent
  cases hfront : beforeLastDot name.toList with
  | none => exact without_empty hw
  | some front =>
    obtain ⟨rest, hrest⟩ := beforeLastDot_eq_some hfront
    have hdot : name.toList = (String.ofList front).toList ++ '.' :: rest := by simpa using hrest
    rw [Without, words_dot hdot, List.mem_append] at h
    exact (not_or.mp h).1

theorem Without.enclosing (hw : word ≠ "") (h : Without word scope) :
    ∀ outer ∈ enclosing scope, Without word outer := by
  induction scope using enclosing.induct with
  | case1 =>
    rw [Name.enclosing]
    simpa using h
  | case2 scope hne ih =>
    rw [Name.enclosing, if_neg hne]
    intro outer houter
    rcases List.mem_cons.mp houter with rfl | houter
    · exact h
    · exact ih (h.parent hw) outer houter

end Without

end Name

/-- No statement declares or looks up a name with the word. -/
def Unused (word : String) (sites : List Site) : Prop :=
  ∀ site ∈ sites, ∀ name ∈ site.declared ++ site.references, Name.Without word name

instance (word : String) (sites : List Site) : Decidable (Unused word sites) :=
  inferInstanceAs (Decidable (∀ site ∈ sites, ∀ name ∈ site.declared ++ site.references,
    Name.Without word name))

namespace Unused

variable {word : String} {sites : List Site} {site : Site} {name : String}

theorem declared (h : Unused word sites) (hsite : site ∈ sites) (hname : name ∈ site.declared) :
    Name.Without word name :=
  h site hsite name (List.mem_append_left _ hname)

theorem reference (h : Unused word sites) (hsite : site ∈ sites)
    (hname : name ∈ site.references) : Name.Without word name :=
  h site hsite name (List.mem_append_right _ hname)

/-- Scopes are made by namespaces, so they do not have the word either. -/
theorem scope (h : Unused word sites) (hw : word ≠ "") (hscopes : ScopesDeclared "" sites)
    (hsite : site ∈ sites) : Name.Without word site.scope := by
  rcases hscopes site hsite with hempty | ⟨around, haround, howner⟩
  · rw [hempty]
    exact Name.without_empty hw
  · exact h.declared haround (List.mem_append_left _ howner)

section Index

variable {index : Index}

theorem hasInterface (h : Unused word sites) (hindex : index.IsOf sites)
    (hi : index.hasInterface name = true) : Name.Without word name := by
  obtain ⟨site, hsite, hin⟩ := hindex.declares hi
  exact h.declared hsite hin

theorem interfaceReference (h : Unused word sites) (hindex : index.IsOf sites)
    {decl : InterfaceDecl} (hdecl : decl ∈ index.interfaces name) {sought : String}
    (hsought : sought ∈ decl.references) : Name.Without word sought := by
  obtain ⟨site, hsite, hin⟩ := List.mem_flatMap.mp (hindex.mem_interfaces.mp hdecl)
  exact h.reference hsite
    (List.mem_append_right _ (List.mem_flatMap.mpr ⟨_, hin, hsought⟩))

theorem typeOf (h : Unused word sites) (hindex : index.IsOf sites) {typeName : String}
    (ht : index.typeOf name = some typeName) : Name.Without word name := by
  obtain ⟨site, hsite, hin⟩ := List.mem_flatMap.mp (hindex.annotation_of_typeOf ht)
  exact h.declared hsite (Site.declared_of_recorded hin)

theorem nameOfType (h : Unused word sites) (hindex : index.IsOf sites) {binding : String}
    (hn : index.nameOfType name = some binding) : Name.Without word binding := by
  obtain ⟨site, hsite, type, -, htyped, -, -⟩ := hindex.typing_of_nameOfType hn
  exact h.declared hsite (Site.declared_of_recorded (site.recorded_of_typedVariable htyped))

end Index

end Unused

end AmbientCatalog
