import AmbientCatalog.Proofs.UnusedWords

/-!
# Inline types in the index

The inline type of a variable is recorded under the name of all complex types. Once the type is an
interface with a name of its own, the index records that name for the variable, and the variable as
the one of that type. If the name is not used otherwise, nothing else changes: every other question
has the same answer, since whatever it asks about is found without the new name.
-/

set_option autoImplicit false

namespace AmbientCatalog

def Site.typed (site : Site) : List (String × TypeExpr) :=
  site.typedFunctions ++ site.typedVariables

theorem flatMap_annotations (sites : List Site) : sites.flatMap Site.annotations =
    (sites.flatMap Site.typed).map (fun typed => (typed.1, typed.2.recordedName)) := by
  rw [List.map_flatMap]
  rfl

theorem Index.meant_qualified (index : Index) (name scope : String) :
    ∃ outer, (index.lookup name scope).getD name = Name.qualify name outer := by
  cases hl : index.lookup name scope with
  | none => exact ⟨"", rfl⟩
  | some found =>
    obtain ⟨outer, -, rfl⟩ := List.mem_map.mp (List.mem_of_find?_eq_some hl)
    exact ⟨outer, rfl⟩

/-- A variable with an inline type, and the statement that declares it: the scope, whether the
statement is `const` and `declare`, and the variables before and after. -/
structure InlineVariable where
  scope : String
  isConst : Bool
  isDeclared : Bool
  before : List Declarator
  name : String
  members : List Member
  after : List Declarator

namespace InlineVariable

variable (v : InlineVariable) (word : String)

def binding : String := Name.qualify v.name v.scope

def interface : String := Name.qualify word v.scope

def declaredWith (type : TypeExpr) : VariableDecl :=
  ⟨v.isConst, v.isDeclared, v.before ++ .ident v.name (some type) :: v.after⟩

def inline : VariableDecl := v.declaredWith (.literalType v.members)

def named : VariableDecl := v.declaredWith (.reference (.ident word) [])

def interfaceDecl : InterfaceDecl := ⟨word, [], v.members⟩

def inlineSites : List Site := [⟨"", v.scope, ⟨0, 0⟩, some (.variableDecl v.inline)⟩]

def namedSites : List Site :=
  [⟨"", v.scope, ⟨0, 0⟩, some (.interfaceDecl (v.interfaceDecl word))⟩,
    ⟨"", v.scope, ⟨0, 0⟩, some (.variableDecl (v.named word))⟩]

theorem typed_split (sites sites' : List Site) : ∃ earlier later,
    (sites ++ v.inlineSites ++ sites').flatMap Site.typed =
      earlier ++ [(v.binding, .literalType v.members)] ++ later ∧
    (sites ++ v.namedSites word ++ sites').flatMap Site.typed =
      earlier ++ [(v.binding, .reference (.ident word) [])] ++ later := by
  refine ⟨sites.flatMap Site.typed ++ v.before.filterMap (Declarator.typed? v.scope),
    v.after.filterMap (Declarator.typed? v.scope) ++ sites'.flatMap Site.typed, ?_, ?_⟩ <;>
  simp [inlineSites, namedSites, Site.typed, Site.typedFunctions, Site.typedVariables, inline,
    named, declaredWith, Declarator.typed?, binding]

theorem typings_split (sites sites' : List Site) : ∃ earlier later,
    (sites ++ v.inlineSites ++ sites').flatMap Site.typings = earlier ++ later ∧
    (sites ++ v.namedSites word ++ sites').flatMap Site.typings =
      earlier ++ [(v.interface word, v.binding)] ++ later := by
  refine ⟨sites.flatMap Site.typings ++ (v.before.filterMap (Declarator.typed? v.scope)).filterMap
    (fun typed => typed.2.simpleName?.map
      (fun typeName => (Name.qualify typeName v.scope, typed.1))),
    (v.after.filterMap (Declarator.typed? v.scope)).filterMap
      (fun typed => typed.2.simpleName?.map
        (fun typeName => (Name.qualify typeName v.scope, typed.1))) ++
      sites'.flatMap Site.typings, ?_, ?_⟩ <;>
  simp [inlineSites, namedSites, Site.typings, Site.typedVariables, inline, named, declaredWith,
    Declarator.typed?, binding, interface, TypeExpr.simpleName?, EntityName.text, EntityName.parts]

theorem interfaces_inline (sites sites' : List Site) :
    (sites ++ v.inlineSites ++ sites').flatMap Site.interfaces =
      sites.flatMap Site.interfaces ++ sites'.flatMap Site.interfaces := by
  simp [inlineSites, Site.interfaces]

theorem interfaces_named (sites sites' : List Site) :
    (sites ++ v.namedSites word ++ sites').flatMap Site.interfaces =
      sites.flatMap Site.interfaces ++ [(v.interface word, v.interfaceDecl word)] ++
        sites'.flatMap Site.interfaces := by
  simp [namedSites, Site.interfaces, interface, interfaceDecl]

theorem steps_inline (s : Setting) : v.inlineSites.flatMap s.stepsAt =
    v.before.flatMap (s.variableSteps v.scope v.inline) ++
      s.variableSteps v.scope v.inline (.ident v.name (some (.literalType v.members))) ++
        v.after.flatMap (s.variableSteps v.scope v.inline) := by
  simp [inlineSites, Setting.stepsAt, inline, declaredWith]

theorem variableSteps_beside (s : Setting) :
    s.variableSteps v.scope (v.named word) = s.variableSteps v.scope v.inline := by
  funext declarator
  cases declarator <;> rfl

theorem steps_named (s : Setting) : (v.namedSites word).flatMap s.stepsAt =
    s.interfaceSteps v.scope (v.interfaceDecl word) ++
      v.before.flatMap (s.variableSteps v.scope v.inline) ++
        s.variableSteps v.scope v.inline (.ident v.name (some (.reference (.ident word) []))) ++
          v.after.flatMap (s.variableSteps v.scope v.inline) := by
  simp only [namedSites, List.flatMap_cons, Setting.stepsAt, variableSteps_beside]
  simp [named, declaredWith]

end InlineVariable

structure InlineVariable.Naming (v : InlineVariable) (word : String) (index index' : Index)
    (before after : List Site) : Prop where
  inline : index.IsOf (before ++ v.inlineSites ++ after)
  named : index'.IsOf (before ++ v.namedSites word ++ after)
  wellNamed : WellNamed (before ++ v.inlineSites ++ after)
  scopes : ScopesDeclared "" (before ++ v.inlineSites ++ after)
  identifier : Name.IsIdentifier word
  unused : Unused word (before ++ v.inlineSites ++ after)
  once : ((before ++ v.inlineSites ++ after).flatMap Site.annotations).countP
    (fun declared => declared.1 = v.binding) = 1
  own : index.hasInterface v.binding = true
  complex : v.name ≠ complexTypeName

namespace InlineVariable.Naming

variable {v : InlineVariable} {word : String} {index index' : Index} {before after : List Site}

theorem inlineSite_mem : ⟨"", v.scope, ⟨0, 0⟩, some (.variableDecl v.inline)⟩ ∈
    before ++ v.inlineSites ++ after :=
  List.mem_append_left _ (List.mem_append_right _ List.mem_cons_self)

theorem declarator_mem : .ident v.name (some (.literalType v.members)) ∈ v.inline.declarators :=
  List.mem_append_right _ List.mem_cons_self

variable (h : v.Naming word index index' before after)

include h

theorem name_isIdentifier : Name.IsIdentifier v.name :=
  h.wellNamed _ inlineSite_mem v.name (List.mem_filterMap.mpr ⟨_, declarator_mem, rfl⟩)

theorem binding_without : Name.Without word v.binding :=
  h.unused.declared inlineSite_mem (Site.declared_of_declarator rfl declarator_mem)

theorem interface_with : ¬Name.Without word (v.interface word) :=
  Name.not_without_qualify h.identifier v.scope

theorem ne_interface {name : String} (hname : Name.Without word name) : name ≠ v.interface word :=
  fun heq => h.interface_with (heq ▸ hname)

theorem once_split : ∃ earlier later : List (String × TypeExpr),
    (before ++ v.inlineSites ++ after).flatMap Site.typed =
      earlier ++ [(v.binding, .literalType v.members)] ++ later ∧
    (before ++ v.namedSites word ++ after).flatMap Site.typed =
      earlier ++ [(v.binding, .reference (.ident word) [])] ++ later ∧
    ∀ typed ∈ earlier ++ later, typed.1 ≠ v.binding := by
  obtain ⟨earlier, later, hinline, hnamed⟩ := v.typed_split word before after
  refine ⟨earlier, later, hinline, hnamed, ?_⟩
  have honce := h.once
  rw [flatMap_annotations, List.countP_map, hinline, List.countP_append,
    List.countP_append] at honce
  have hnone : (earlier ++ later).countP (fun typed => typed.1 = v.binding) = 0 := by
    rw [List.countP_append]
    simp [Function.comp_def] at honce
    omega
  intro typed htyped
  simpa using List.countP_eq_zero.mp hnone typed htyped

theorem declaredTypes_split : ∃ earlier later : List (String × String),
    index.declaredTypes = (earlier ++ [(v.binding, complexTypeName)] ++ later).reverse ∧
    index'.declaredTypes = (earlier ++ [(v.binding, word)] ++ later).reverse ∧
    ∀ declared ∈ earlier ++ later, declared.1 ≠ v.binding := by
  obtain ⟨earlier, later, hinline, hnamed, hother⟩ := h.once_split
  refine ⟨earlier.map (fun typed => (typed.1, typed.2.recordedName)),
    later.map (fun typed => (typed.1, typed.2.recordedName)), ?_, ?_, ?_⟩
  · rw [h.inline.declared, flatMap_annotations, hinline, List.map_append, List.map_append]
    rfl
  · rw [h.named.declared, flatMap_annotations, hnamed, List.map_append, List.map_append]
    rfl
  · rw [← List.map_append]
    intro declared hdeclared
    obtain ⟨typed, htyped, rfl⟩ := List.mem_map.mp hdeclared
    exact hother typed htyped

theorem typeOf_of_ne {name : String} (hne : name ≠ v.binding) :
    index'.typeOf name = index.typeOf name := by
  obtain ⟨earlier, later, hinline, hnamed, -⟩ := h.declaredTypes_split
  have hother : (name == v.binding) = false := by simpa using hne
  simp [Index.typeOf, hinline, hnamed, List.lookup_append, List.lookup_cons, hother]

theorem typeOf_binding : index.typeOf v.binding = some complexTypeName ∧
    index'.typeOf v.binding = some word := by
  obtain ⟨earlier, later, hinline, hnamed, hother⟩ := h.declaredTypes_split
  rw [Index.typeOf, Index.typeOf, hinline, hnamed, lookup_around hother, lookup_around hother]
  simp

theorem isKnown (name : String) : index'.isKnown name = index.isKnown name := by
  by_cases hname : name = v.binding
  · rw [Index.isKnown, Index.isKnown, hname, h.typeOf_binding.1, h.typeOf_binding.2]
    rfl
  · rw [Index.isKnown, Index.isKnown, h.typeOf_of_ne hname]

theorem interfaces_of_ne {name : String} (hne : name ≠ v.interface word) :
    index'.interfaces name = index.interfaces name := by
  rw [h.inline.interfaces, h.named.interfaces, v.interfaces_inline, v.interfaces_named]
  simp [Ne.symm hne]

theorem elements_of_without {name : String} (hname : Name.Without word name) :
    index'.elements name = index.elements name := by
  rw [Index.elements, Index.elements, h.interfaces_of_ne (h.ne_interface hname)]

theorem hasInterface_of_ne {name : String} (hne : name ≠ v.interface word) :
    index'.hasInterface name = index.hasInterface name := by
  rw [Index.hasInterface, Index.hasInterface, h.interfaces_of_ne hne]

theorem interfaces_interface : index.interfaces (v.interface word) = [] ∧
    index'.interfaces (v.interface word) = [v.interfaceDecl word] := by
  have hnone : index.interfaces (v.interface word) = [] := by
    by_contra hsome
    have hi : index.hasInterface (v.interface word) = true := by
      simpa [Index.hasInterface] using hsome
    exact h.interface_with (h.unused.hasInterface h.inline hi)
  refine ⟨hnone, ?_⟩
  rw [h.inline.interfaces, v.interfaces_inline, List.filter_append, List.map_append,
    List.append_eq_nil_iff] at hnone
  rw [h.named.interfaces, v.interfaces_named, List.filter_append, List.filter_append,
    List.map_append, List.map_append, hnone.1, hnone.2]
  simp

theorem constructs_of_ne {name : String} (hne : name ≠ v.interface word) :
    index'.isConstructorType name = index.isConstructorType name := by
  rw [Bool.eq_iff_iff, h.named.constructs, h.inline.constructs]
  simp only [← h.named.mem_interfaces, ← h.inline.mem_interfaces, h.interfaces_of_ne hne]

theorem nameOfType_of_ne {name : String} (hne : name ≠ v.interface word) :
    index'.nameOfType name = index.nameOfType name := by
  obtain ⟨earlier, later, hinline, hnamed⟩ := v.typings_split word before after
  have hother : (name == v.interface word) = false := by simpa using hne
  rw [Index.nameOfType, Index.nameOfType, h.inline.typed, h.named.typed, hinline, hnamed]
  simp [List.lookup_append, List.lookup_cons, hother]

theorem nameOfType_ne (name : String) : index.nameOfType name ≠ some v.binding := by
  intro hname
  obtain ⟨earlier, later, hinline, -, hother⟩ := h.once_split
  obtain ⟨site, hsite, type, typeName, htyped, hsimple, -⟩ := h.inline.typing_of_nameOfType hname
  have hmem : (v.binding, type) ∈ (before ++ v.inlineSites ++ after).flatMap Site.typed :=
    List.mem_flatMap.mpr ⟨site, hsite, List.mem_append_right _ htyped⟩
  rw [hinline, List.append_assoc, List.mem_append, List.mem_append, List.mem_singleton] at hmem
  rcases hmem with hin | heq | hin
  · exact hother _ (List.mem_append_left _ hin) rfl
  · obtain ⟨-, rfl⟩ := Prod.mk.inj heq
    simp [TypeExpr.simpleName?] at hsimple
  · exact hother _ (List.mem_append_right _ hin) rfl

theorem nameOfType_interface : index'.nameOfType (v.interface word) = some v.binding := by
  obtain ⟨earlier, later, hinline, hnamed⟩ := v.typings_split word before after
  have hother : ∀ typing ∈ earlier ++ later, typing.1 ≠ v.interface word := by
    rw [← hinline]
    intro typing htyping
    obtain ⟨site, hsite, hin⟩ := List.mem_flatMap.mp htyping
    obtain ⟨⟨binding, type⟩, htyped, hname⟩ := List.mem_filterMap.mp hin
    obtain ⟨typeName, hsimple, rfl⟩ := Option.map_eq_some_iff.mp hname
    have hreference := h.unused.reference hsite
      (Site.reference_of_simpleName (List.mem_append_right _ htyped) hsimple)
    exact h.ne_interface (hreference.qualify (h.unused.scope h.identifier.1 h.scopes hsite))
  rw [Index.nameOfType, h.named.typed, hnamed, lookup_around hother]
  simp

theorem typeOf_interface : index'.typeOf (v.interface word) = none := by
  rw [h.typeOf_of_ne (h.ne_interface h.binding_without).symm]
  by_contra hsome
  obtain ⟨typeName, ht⟩ := Option.ne_none_iff_exists'.mp hsome
  exact h.interface_with (h.unused.typeOf h.inline ht)

theorem lookup {name scope : String} (hname : Name.Without word name)
    (hscope : Name.Without word scope) : index'.lookup name scope = index.lookup name scope := by
  rw [Index.lookup, Index.lookup]
  apply List.find?_congr
  intro found hfound
  obtain ⟨outer, houter, rfl⟩ := List.mem_map.mp hfound
  have hqualified := hname.qualify (hscope.enclosing h.identifier.1 outer houter)
  rw [h.hasInterface_of_ne (h.ne_interface hqualified)]

theorem lookup_word : index'.lookup word v.scope = some (v.interface word) := by
  have hi : index'.hasInterface (v.interface word) = true := by
    rw [Index.hasInterface, h.interfaces_interface.2]
    rfl
  exact Index.lookup_innermost hi

end InlineVariable.Naming

end AmbientCatalog
