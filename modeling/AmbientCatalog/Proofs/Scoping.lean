import AmbientCatalog.Proofs.Indexing
import Mathlib.Data.List.Chain

/-!
# Lexical scoping

Scopes are strings, and going outwards means to cut a string at its last dot until nothing is left.
Each cut is shorter than what was cut, so every scope, however its dots stand, is left after
finitely many cuts. A name means the interface of the first scope on this way that has one, and a
scope that lies on the way of another one is searched after everything inside it and before
everything around it.
-/

set_option autoImplicit false

namespace AmbientCatalog

namespace Name

def CutsTo (scope outer : String) : Prop :=
  scope ≠ "" ∧ ((∃ last : String, '.' ∉ last.toList ∧ scope = outer ++ "." ++ last) ∨
    ('.' ∉ scope.toList ∧ outer = ""))

theorem parent_append {last : String} (h : '.' ∉ last.toList) (outer : String) :
    parent (outer ++ "." ++ last) = outer := by
  simp [parent, beforeLastDot_append _ h]

theorem parent_dotless {scope : String} (h : '.' ∉ scope.toList) : parent scope = "" := by
  simp [parent, beforeLastDot_none h]

theorem beforeLastDot_cut (cs : List Char) :
    ('.' ∉ cs ∧ beforeLastDot cs = none) ∨
      ∃ front last, '.' ∉ last ∧ cs = front ++ '.' :: last ∧ beforeLastDot cs = some front := by
  induction cs with
  | nil => exact .inl ⟨List.not_mem_nil, rfl⟩
  | cons c cs ih =>
    rcases ih with ⟨hdot, hnone⟩ | ⟨front, last, hlast, rfl, hsome⟩
    · by_cases hc : c = '.'
      · subst hc
        exact .inr ⟨[], cs, hdot, rfl, by simp [beforeLastDot, hnone]⟩
      · exact .inl ⟨by simp [Ne.symm hc, hdot], by simp [beforeLastDot, hnone, hc]⟩
    · exact .inr ⟨c :: front, last, hlast, rfl, by simp [beforeLastDot, hsome]⟩

theorem cutsTo_iff {scope outer : String} :
    CutsTo scope outer ↔ scope ≠ "" ∧ outer = parent scope := by
  refine and_congr_right fun hne => ⟨?_, ?_⟩
  · rintro (⟨last, hlast, rfl⟩ | ⟨hdot, rfl⟩)
    · exact (parent_append hlast outer).symm
    · exact (parent_dotless hdot).symm
  · rintro rfl
    rcases beforeLastDot_cut scope.toList with ⟨hdot, -⟩ | ⟨front, last, hlast, hsplit, hsome⟩
    · exact .inr ⟨hdot, parent_dotless hdot⟩
    · refine .inl ⟨String.ofList last, by simpa using hlast, ?_⟩
      rw [← String.toList_inj, hsplit]
      simp [parent, hsome]

theorem enclosing_empty : enclosing "" = [""] := by
  rw [enclosing, if_pos rfl]

theorem enclosing_of_ne {scope : String} (h : scope ≠ "") :
    enclosing scope = scope :: enclosing (parent scope) := by
  rw [enclosing, if_neg h]

theorem head?_enclosing (scope : String) : (enclosing scope).head? = some scope := by
  by_cases h : scope = ""
  · rw [h, enclosing_empty]
    rfl
  · rw [enclosing_of_ne h]
    rfl

theorem getLast?_enclosing (scope : String) : (enclosing scope).getLast? = some "" := by
  induction scope using enclosing.induct with
  | case1 => rw [enclosing_empty]; rfl
  | case2 scope h ih => rw [enclosing_of_ne h, List.getLast?_cons, ih]; rfl

theorem isChain_enclosing (scope : String) : (enclosing scope).IsChain CutsTo := by
  induction scope using enclosing.induct with
  | case1 => rw [enclosing_empty]; exact .singleton ""
  | case2 scope h ih =>
    rw [enclosing_of_ne h]
    refine ih.cons fun outer houter => ?_
    rw [head?_enclosing] at houter
    exact cutsTo_iff.mpr ⟨h, (Option.some.inj houter).symm⟩

/-- Wherever one stands on the way outwards, the rest of the way is that of the scope there. -/
theorem enclosing_append {scope outer : String} {before after : List String}
    (h : enclosing scope = before ++ outer :: after) : enclosing outer = outer :: after := by
  induction before generalizing scope with
  | nil =>
    have hhead := head?_enclosing scope
    rw [h] at hhead
    obtain rfl : outer = scope := by simpa using hhead
    exact h
  | cons inner before ih =>
    by_cases hs : scope = ""
    · rw [hs, enclosing_empty] at h
      simp at h
    · rw [enclosing_of_ne hs, List.cons_append] at h
      exact ih (List.cons.inj h).2

end Name

def Corpus.DeclaresInterface (corpus : Corpus) (name : String) : Prop :=
  ∃ site ∈ fileSites .stepwise corpus.files, ∃ decl, (name, decl) ∈ site.interfaces

theorem Corpus.hasInterface_iff (corpus : Corpus) (name : String) :
    corpus.index.hasInterface name = true ↔ corpus.DeclaresInterface name := by
  rw [corpus.index_isOf.hasInterface_iff]
  simp only [List.mem_flatMap, DeclaresInterface]
  exact ⟨fun ⟨decl, site, hsite, h⟩ => ⟨site, hsite, decl, h⟩,
    fun ⟨site, hsite, decl, h⟩ => ⟨decl, site, hsite, h⟩⟩

namespace Index

/-- A lookup finds the interface of the first scope that has one. -/
theorem lookup_eq_some_iff {index : Index} {name scope found : String} :
    index.lookup name scope = some found ↔
      ∃ before outer after, Name.enclosing scope = before ++ outer :: after ∧
        found = Name.qualify name outer ∧ index.hasInterface found = true ∧
        ∀ inner ∈ before, index.hasInterface (Name.qualify name inner) = false := by
  rw [lookup, List.find?_map, Option.map_eq_some_iff]
  simp only [List.find?_eq_some_iff_append, Function.comp_apply, Bool.not_eq_true']
  constructor
  · rintro ⟨outer, ⟨hfound, before, after, hsplit, hbefore⟩, rfl⟩
    exact ⟨before, outer, after, hsplit, rfl, hfound, hbefore⟩
  · rintro ⟨before, outer, after, hsplit, rfl, hfound, hbefore⟩
    exact ⟨outer, ⟨hfound, before, after, hsplit, hbefore⟩, rfl⟩

theorem lookup_eq_none_iff {index : Index} {name scope : String} :
    index.lookup name scope = none ↔
      ∀ outer ∈ Name.enclosing scope, index.hasInterface (Name.qualify name outer) = false := by
  simp [lookup]

theorem lookup_inside {index : Index} {name scope inner : String}
    (hinner : scope ∈ Name.enclosing inner)
    (h : index.hasInterface (Name.qualify name scope) = true) :
    ∃ outer, index.lookup name inner = some (Name.qualify name outer) ∧
      outer ∈ Name.enclosing inner ∧ scope ∈ Name.enclosing outer := by
  cases hl : index.lookup name inner with
  | none => simp [lookup_eq_none_iff.mp hl scope hinner] at h
  | some found =>
    obtain ⟨before, outer, after, hsplit, rfl, -, hbefore⟩ := lookup_eq_some_iff.mp hl
    have hlater : scope ∈ outer :: after := by
      rw [hsplit] at hinner
      refine (List.mem_append.mp hinner).resolve_left fun hmem => ?_
      simp [hbefore scope hmem] at h
    refine ⟨outer, rfl, by simp [hsplit], ?_⟩
    rwa [Name.enclosing_append hsplit]

end Index

/-- A name written in a scope means an interface: that of the first scope outwards which has one. -/
def Corpus.Means (corpus : Corpus) (name scope found : String) : Prop :=
  ∃ before outer after, Name.enclosing scope = before ++ outer :: after ∧
    found = Name.qualify name outer ∧ corpus.DeclaresInterface found ∧
    ∀ inner ∈ before, ¬corpus.DeclaresInterface (Name.qualify name inner)

theorem Corpus.lookup_eq_some_iff (corpus : Corpus) {name scope found : String} :
    corpus.index.lookup name scope = some found ↔ corpus.Means name scope found := by
  simp only [Means, ← corpus.hasInterface_iff, Bool.not_eq_true]
  exact Index.lookup_eq_some_iff

theorem WellNamed.parent_interface {sites : List Site} (h : WellNamed sites) {site : Site}
    (hsite : site ∈ sites) {name : String} {decl : InterfaceDecl}
    (hmem : (name, decl) ∈ site.interfaces) : Name.parent name = site.scope := by
  have hin : (name, decl) ∈ [site].flatMap Site.interfaces := by simpa using hmem
  have hnamed : WellNamed [site] := fun other hother => h other (by simp_all)
  obtain ⟨other, hother, hident, rfl⟩ := hnamed.interface hin
  rw [List.mem_singleton.mp hother, Name.parent_qualify hident]

/-- A name means the interface of the first scope that declares one, among those cut off at one dot
after the other, and nothing if there is none. So an interface of a scope hides those around it from
everywhere inside. -/
theorem Corpus.lookup_scoped (corpus : Corpus) (name scope : String) :
    ((Name.enclosing scope).head? = some scope ∧ (Name.enclosing scope).getLast? = some "" ∧
      (Name.enclosing scope).IsChain Name.CutsTo) ∧
    (∀ found, corpus.index.lookup name scope = some found ↔
      ∃ before outer after, Name.enclosing scope = before ++ outer :: after ∧
        found = Name.qualify name outer ∧ corpus.DeclaresInterface found ∧
        ∀ inner ∈ before, ¬corpus.DeclaresInterface (Name.qualify name inner)) ∧
    (corpus.index.lookup name scope = none ↔
      ∀ outer ∈ Name.enclosing scope, ¬corpus.DeclaresInterface (Name.qualify name outer)) ∧
    (∀ site ∈ fileSites .stepwise corpus.files, ∀ declared ∈ site.interfaces,
      Name.parent declared.1 = site.scope) ∧
    (∀ inner, scope ∈ Name.enclosing inner →
      corpus.DeclaresInterface (Name.qualify name scope) →
      ∃ outer, corpus.index.lookup name inner = some (Name.qualify name outer) ∧
        outer ∈ Name.enclosing inner ∧ scope ∈ Name.enclosing outer) := by
  refine ⟨⟨Name.head?_enclosing scope, Name.getLast?_enclosing scope,
    Name.isChain_enclosing scope⟩, fun found => ?_, ?_, fun site hsite declared hmem => ?_,
    fun inner hinner hdeclared => ?_⟩
  · exact corpus.lookup_eq_some_iff
  · simp only [← corpus.hasInterface_iff, Bool.not_eq_true]
    exact Index.lookup_eq_none_iff
  · exact (wellNamed_fileSites corpus.files).parent_interface hsite hmem
  · exact Index.lookup_inside hinner ((corpus.hasInterface_iff _).mpr hdeclared)

def collatorFile : SourceFile :=
  { id := 0
    specifier := "file:///collator.d.ts"
    mediaType := .dts
    items := [
      .mk ⟨1, 1⟩ (.plain (.interfaceDecl ⟨"Collator", [], []⟩)),
      .mk ⟨2, 1⟩ (.plain (.namespaceDecl true ["Intl"] [
        .mk ⟨3, 1⟩ (.plain (.interfaceDecl ⟨"Collator", [], []⟩))]))]
    named := by decide }

theorem Corpus.lookup_scoped_collator :
    Name.parent "Intl.Collator" = "Intl" ∧
      ∃ outer, (Corpus.ofFiles [collatorFile]).index.lookup "Collator" "Intl.Locale" =
          some (Name.qualify "Collator" outer) ∧
        outer ∈ Name.enclosing "Intl.Locale" ∧ "Intl" ∈ Name.enclosing outer := by
  have hsite : (⟨"file:///collator.d.ts", "Intl", ⟨3, 1⟩,
      some (.interfaceDecl ⟨"Collator", [], []⟩)⟩ : Site) ∈
      fileSites .stepwise (Corpus.ofFiles [collatorFile]).files :=
    List.mem_cons_of_mem _ (List.mem_cons_of_mem _ List.mem_cons_self)
  obtain ⟨-, -, -, hparent, hinside⟩ :=
    Corpus.lookup_scoped (Corpus.ofFiles [collatorFile]) "Collator" "Intl"
  exact ⟨hparent _ hsite _ List.mem_cons_self,
    hinside "Intl.Locale" (by decide +kernel) ⟨_, hsite, _, List.mem_cons_self⟩⟩

end AmbientCatalog
