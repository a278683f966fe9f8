import AmbientCatalog.Proofs.Roots
import Mathlib.Data.List.Find

/-!
# A part of a corpus

The index of a corpus answers every question about a part of it as the index of that part does, as
long as the names in the question are apart from the roots of the rest. Where the part and the rest
are unrelated, the sites of the part raise no other questions: they have the same steps in the
whole, and carrying out these steps in the whole yields the same nodes.
-/

set_option autoImplicit false

namespace AmbientCatalog

/-- The index of a whole answers like that of a part, where the names are apart from the roots of
the rest. What the part itself declares and looks up is apart from them. -/
structure Index.Widens (whole part : Index) (away : List String) : Prop where
  interfaces : ∀ name, Name.Apart away name → whole.interfaces name = part.interfaces name
  typeOf : ∀ name, Name.Apart away name → whole.typeOf name = part.typeOf name
  constructs : ∀ name, Name.Apart away name →
    whole.isConstructorType name = part.isConstructorType name
  nameOfType : ∀ name, part.hasInterface name = true →
    whole.nameOfType name = part.nameOfType name
  declared : ∀ name, part.hasInterface name = true → Name.Apart away name
  references : ∀ name, ∀ decl ∈ part.interfaces name, ∀ sought ∈ decl.references,
    Name.Apart away sought
  recorded : ∀ name typeName, part.typeOf name = some typeName → Name.Apart away typeName
  typed : ∀ name binding, part.nameOfType name = some binding → Name.Apart away binding

theorem Site.declared_of_interface {site : Site} {name : String} {decl : InterfaceDecl}
    (h : (name, decl) ∈ site.interfaces) : name ∈ site.declared :=
  List.mem_append_right _ (List.mem_map_of_mem h)

theorem Site.declared_of_recorded {site : Site} {name typeName : String}
    (h : (name, typeName) ∈ site.annotations) : name ∈ site.declared :=
  List.mem_append_left _ (owner_of_value (value_of_recorded h))

theorem Site.declared_of_declarator {site : Site} {decl : VariableDecl}
    (hdecl : site.decl? = some (.variableDecl decl)) {name : String} {type : Option TypeExpr}
    (hmem : .ident name type ∈ decl.declarators) :
    Name.qualify name site.scope ∈ site.declared :=
  List.mem_append_left _ (owner_of_value (value_of_declarator hdecl hmem))

theorem Site.reference_of_simpleName {site : Site} {name typeName : String} {type : TypeExpr}
    (h : (name, type) ∈ site.typedFunctions ++ site.typedVariables)
    (ht : type.simpleName? = some typeName) : typeName ∈ site.references :=
  List.mem_append_left _ (List.mem_filterMap.mpr ⟨_, h, ht⟩)

namespace Site.Apart

variable {away : List String} {site : Site}

theorem recorded (h : site.Apart away) (hc : Name.Apart away complexTypeName)
    {name typeName : String} (ha : (name, typeName) ∈ site.annotations) :
    Name.Apart away typeName := by
  obtain ⟨⟨_, type⟩, htyped, heq⟩ := List.mem_map.mp ha
  obtain ⟨-, rfl⟩ := Prod.mk.inj heq
  rw [TypeExpr.recordedName]
  cases ht : type.simpleName? with
  | none => exact hc
  | some typeName => exact h.references _ (reference_of_simpleName htyped ht)

theorem typing (h : site.Apart away) {name binding : String} (ht : (name, binding) ∈ site.typings) :
    Name.Apart away name := by
  obtain ⟨⟨_, type⟩, htyped, hname⟩ := List.mem_filterMap.mp ht
  obtain ⟨typeName, hsimple, heq⟩ := Option.map_eq_some_iff.mp hname
  obtain ⟨rfl, -⟩ := Prod.mk.inj heq
  have hreference := reference_of_simpleName (List.mem_append_right _ htyped) hsimple
  exact (h.references _ hreference).qualify h.scope

end Site.Apart

theorem lookup_around {before table after : List (String × String)} {name : String}
    (h : ∀ entry ∈ before ++ after, entry.1 ≠ name) :
    (before ++ table ++ after).reverse.lookup name = table.reverse.lookup name := by
  have hnone : ∀ rest : List (String × String), (∀ entry ∈ rest, entry.1 ≠ name) →
      rest.reverse.lookup name = none := by
    intro rest hrest
    rw [List.lookup_eq_none_iff]
    intro entry hentry
    simpa using Ne.symm (hrest entry (List.mem_reverse.mp hentry))
  have hbefore := hnone before (fun entry he => h entry (List.mem_append_left _ he))
  have hafter := hnone after (fun entry he => h entry (List.mem_append_right _ he))
  simp [List.lookup_append, hbefore, hafter]

namespace Index.IsOf

section Around

variable {whole part : Index} {before sites after : List Site}

theorem interfaces_around (hw : whole.IsOf (before ++ sites ++ after)) (hp : part.IsOf sites)
    {name : String} (h : ∀ site ∈ before ++ after, name ∉ site.declared) :
    whole.interfaces name = part.interfaces name := by
  have hnone : ∀ rest : List Site, (∀ site ∈ rest, name ∉ site.declared) →
      (rest.flatMap Site.interfaces).filter (fun declared => declared.1 = name) = [] := by
    intro rest hrest
    rw [List.filter_eq_nil_iff]
    rintro ⟨other, decl⟩ hmem heq
    obtain rfl : other = name := by simpa using heq
    obtain ⟨site, hsite, hin⟩ := List.mem_flatMap.mp hmem
    exact hrest site hsite (Site.declared_of_interface hin)
  have hbefore := hnone before (fun site hsite => h site (List.mem_append_left _ hsite))
  have hafter := hnone after (fun site hsite => h site (List.mem_append_right _ hsite))
  simp [hw.interfaces, hp.interfaces, hbefore, hafter]

theorem constructs_around (hw : whole.IsOf (before ++ sites ++ after)) (hp : part.IsOf sites)
    {name : String} (h : ∀ site ∈ before ++ after, name ∉ site.declared) :
    whole.isConstructorType name = part.isConstructorType name := by
  rw [Bool.eq_iff_iff, hw.constructs, hp.constructs]
  simp only [← hw.mem_interfaces, ← hp.mem_interfaces, hw.interfaces_around hp h]

theorem typeOf_around (hw : whole.IsOf (before ++ sites ++ after)) (hp : part.IsOf sites)
    {name : String} (h : ∀ site ∈ before ++ after, name ∉ site.declared) :
    whole.typeOf name = part.typeOf name := by
  rw [typeOf, typeOf, hw.declared, hp.declared, List.flatMap_append, List.flatMap_append]
  refine lookup_around ?_
  rintro ⟨_, typeName⟩ hmem rfl
  rw [← List.flatMap_append] at hmem
  obtain ⟨site, hsite, hin⟩ := List.mem_flatMap.mp hmem
  exact h site hsite (Site.declared_of_recorded hin)

theorem nameOfType_around (hw : whole.IsOf (before ++ sites ++ after)) (hp : part.IsOf sites)
    {name : String} (h : ∀ site ∈ before ++ after, ∀ binding, (name, binding) ∉ site.typings) :
    whole.nameOfType name = part.nameOfType name := by
  rw [nameOfType, nameOfType, hw.typed, hp.typed, List.flatMap_append, List.flatMap_append]
  refine lookup_around ?_
  rintro ⟨_, binding⟩ hmem rfl
  rw [← List.flatMap_append] at hmem
  obtain ⟨site, hsite, hin⟩ := List.mem_flatMap.mp hmem
  exact h site hsite binding hin

end Around

theorem declares {index : Index} {sites : List Site} (h : index.IsOf sites) {name : String}
    (hi : index.hasInterface name = true) : ∃ site ∈ sites, name ∈ site.declared := by
  obtain ⟨decl, hdecl⟩ := h.hasInterface_iff.mp hi
  obtain ⟨site, hsite, hin⟩ := List.mem_flatMap.mp hdecl
  exact ⟨site, hsite, Site.declared_of_interface hin⟩

/-- The index of some sites is widened by unrelated sites around them. -/
theorem widens {whole part : Index} {before sites after : List Site}
    (hw : whole.IsOf (before ++ sites ++ after)) (hp : part.IsOf sites)
    (hscopes : ScopesDeclared "" sites) (hscopes' : ScopesDeclared "" (before ++ after))
    (h : Unrelated sites (before ++ after)) : whole.Widens part (rootsOf (before ++ after)) := by
  have hhome : ∀ site ∈ sites, site.Apart (rootsOf (before ++ after)) :=
    fun site hsite => h.apart hscopes hsite
  have hforeign : ∀ name, Name.Apart (rootsOf (before ++ after)) name →
      ∀ site ∈ before ++ after, name ∉ site.declared :=
    fun name hname site hsite hin => hname (mem_rootsOf hsite hin)
  exact {
    interfaces := fun name hname => hw.interfaces_around hp (hforeign name hname)
    typeOf := fun name hname => hw.typeOf_around hp (hforeign name hname)
    constructs := fun name hname => hw.constructs_around hp (hforeign name hname)
    nameOfType := by
      -- a type that the rest names, qualified where it stands, has a root that the part lacks
      intro name hi
      obtain ⟨home, hmem, hdeclared⟩ := hp.declares hi
      refine hw.nameOfType_around hp (fun site hsite binding hin => ?_)
      exact (h.symm.apart hscopes' hsite).typing hin (mem_rootsOf hmem hdeclared)
    declared := by
      intro name hi
      obtain ⟨site, hsite, hin⟩ := hp.declares hi
      exact (hhome site hsite).declared name hin
    references := by
      intro name decl hdecl sought hsought
      obtain ⟨site, hsite, hin⟩ := List.mem_flatMap.mp (hp.mem_interfaces.mp hdecl)
      exact (hhome site hsite).references sought
        (List.mem_append_right _ (List.mem_flatMap.mpr ⟨_, hin, hsought⟩))
    recorded := by
      intro name typeName ht
      obtain ⟨site, hsite, hin⟩ := List.mem_flatMap.mp (hp.annotation_of_typeOf ht)
      exact (hhome site hsite).recorded (fun hroot => h.2 _ hroot List.mem_cons_self) hin
    typed := by
      intro name binding hn
      obtain ⟨site, hsite, type, -, htyped, -, -⟩ := hp.typing_of_nameOfType hn
      exact (hhome site hsite).declared binding
        (Site.declared_of_recorded (site.recorded_of_typedVariable htyped)) }

end Index.IsOf

namespace Index.Widens

variable {whole part : Index} {away : List String}

theorem hasInterface (h : whole.Widens part away) {name : String} (hname : Name.Apart away name) :
    whole.hasInterface name = part.hasInterface name := by
  rw [Index.hasInterface, Index.hasInterface, h.interfaces name hname]

theorem isKnown (h : whole.Widens part away) {name : String} (hname : Name.Apart away name) :
    whole.isKnown name = part.isKnown name := by
  rw [Index.isKnown, Index.isKnown, h.typeOf name hname]

/-- A name that is apart means the same in every scope that is. -/
theorem lookup (h : whole.Widens part away) {name scope : String} (hname : Name.Apart away name)
    (hscope : Name.ScopeApart away scope) : whole.lookup name scope = part.lookup name scope := by
  rw [Index.lookup, Index.lookup]
  apply List.find?_congr
  intro found hfound
  obtain ⟨outer, houter, rfl⟩ := List.mem_map.mp hfound
  exact h.hasInterface (hname.qualify (hscope.enclosing outer houter))

theorem apart_of_lookup (h : whole.Widens part away) {name scope found : String}
    (hl : part.lookup name scope = some found) : Name.Apart away found :=
  h.declared found (Index.hasInterface_of_lookup hl)

theorem bindingOf (h : whole.Widens part away) {name : String}
    (hi : part.hasInterface name = true) : whole.bindingOf name = part.bindingOf name := by
  rw [Index.bindingOf, Index.bindingOf, h.typeOf name (h.declared name hi)]
  cases part.typeOf name with
  | some typeName => rfl
  | none =>
    dsimp only
    rw [h.nameOfType name hi]
    cases hn : part.nameOfType name with
    | none => rfl
    | some binding => simp [h.typeOf binding (h.typed name binding hn)]

/-- The variable that an interface is about is apart, and so is the type recorded for it. -/
theorem binding_apart (h : whole.Widens part away) {name : String}
    (hi : part.hasInterface name = true) {binding : Binding}
    (hb : part.bindingOf name = some binding) :
    Name.Apart away binding.name ∧
      ∀ typeName, binding.typeName = some typeName → Name.Apart away typeName := by
  obtain ⟨hconcerns, htype⟩ := Index.bindingOf_eq_some.mp hb
  refine ⟨?_, fun typeName ht => h.recorded binding.name typeName (htype ▸ ht)⟩
  rcases hconcerns with ⟨heq, -⟩ | ⟨-, hn⟩
  · exact heq ▸ h.declared name hi
  · exact h.typed name binding.name hn

end Index.Widens

namespace Setting

theorem constructed_congr {s s' : Setting} {interface : String}
    (helements : s'.index.elements interface = s.index.elements interface)
    (hlookup : ∀ decl ∈ s.index.interfaces interface, ∀ name ∈ decl.references,
      s'.index.lookup name (Name.parent interface) = s.index.lookup name (Name.parent interface)) :
    s'.constructed interface = s.constructed interface := by
  rw [constructed_eq, constructed_eq, helements]
  refine congrArg List.eraseDups (List.filterMap_congr fun member hmember => ?_)
  cases hbuilt : member.builtName? with
  | none => rfl
  | some name =>
    obtain ⟨decl, hdecl, hin⟩ := List.mem_flatMap.mp hmember
    exact hlookup decl hdecl name
      (List.mem_append_right _ (List.mem_filterMap.mpr ⟨member, hin, hbuilt⟩))

section Steps

variable {whole part : FiledIndex} {away : List String} (options : Options)

theorem roleOf_widens (h : whole.Widens part away) (interface : String) {binding : String}
    (hb : Name.Apart away binding) {type : Option String}
    (ht : ∀ name, type = some name → Name.Apart away name) :
    (Setting.mk whole options).roleOf interface binding type =
      (Setting.mk part options).roleOf interface binding type := by
  cases type with
  | none => rfl
  | some name => simp only [roleOf, Option.map_some, h.lookup (ht name rfl) hb.parent]

theorem constructed_widens (h : whole.Widens part away) {interface : String}
    (hi : Name.Apart away interface) :
    (Setting.mk whole options).constructed interface =
      (Setting.mk part options).constructed interface := by
  have helements : whole.elements interface = part.elements interface := by
    rw [Index.elements, Index.elements, h.interfaces interface hi]
  exact constructed_congr helements fun decl hdecl name hname =>
    h.lookup (h.references interface decl hdecl name hname) hi.parent

theorem instanceSteps_widens (h : whole.Widens part away) {binding : String}
    (hb : Name.Apart away binding) {interface : String} (hi : Name.Apart away interface) :
    (Setting.mk whole options).instanceSteps binding interface =
      (Setting.mk part options).instanceSteps binding interface := by
  simp only [instanceSteps, h.hasInterface hb, h.constructs interface hi,
    constructed_widens options h hi]

theorem variableSteps_widens (h : whole.Widens part away) {site : Site} (hsite : site.Apart away)
    {decl : VariableDecl} (hdecl : site.decl? = some (.variableDecl decl)) {declarator : Declarator}
    (hd : declarator ∈ decl.declarators) :
    (Setting.mk whole options).variableSteps site.scope decl declarator =
      (Setting.mk part options).variableSteps site.scope decl declarator := by
  cases declarator with
  | destructured => rfl
  | ident name type? =>
    cases type? with
    | none => rfl
    | some type =>
      have hb : Name.Apart away (Name.qualify name site.scope) :=
        hsite.declared _ (Site.declared_of_declarator hdecl hd)
      have htyped := Site.typedVariable_of_declarator hdecl hd rfl
      have ht : ∀ typeName, type.simpleName? = some typeName → Name.Apart away typeName :=
        fun typeName hname => hsite.references typeName
          (Site.reference_of_simpleName (List.mem_append_right _ htyped) hname)
      exact variableSteps_congr decl (h.hasInterface hb)
        (fun typeName hname => h.lookup (ht typeName hname) hsite.scope)
        (fun interface => roleOf_widens options h interface hb ht)
        (fun typeName interface _ hl =>
          instanceSteps_widens options h hb (h.apart_of_lookup hl))

theorem interfaceSteps_widens (h : whole.Widens part away) {scope : String} {decl : InterfaceDecl}
    (hi : part.hasInterface (Name.qualify decl.name scope) = true) :
    (Setting.mk whole options).interfaceSteps scope decl =
      (Setting.mk part options).interfaceSteps scope decl := by
  dsimp only [interfaceSteps]
  rw [h.bindingOf hi]
  cases hb : part.bindingOf (Name.qualify decl.name scope) with
  | none => rfl
  | some binding =>
    obtain ⟨hname, htype⟩ := h.binding_apart hi hb
    dsimp only
    rw [roleOf_widens options h _ hname htype]

/-- A site of the part has the same steps in the whole. -/
theorem stepsAt_widens (h : whole.Widens part away) {sites : List Site} (hp : part.IsOf sites)
    {site : Site} (hmem : site ∈ sites) (hsite : site.Apart away) :
    (Setting.mk whole options).stepsAt site = (Setting.mk part options).stepsAt site := by
  obtain ⟨specifier, scope, start, decl?⟩ := site
  cases decl? with
  | none => rfl
  | some declared =>
    cases declared with
    | functionDecl decl =>
      have hname : Name.Apart away (Name.qualify decl.name scope) :=
        hsite.declared _ (List.mem_append_left _ List.mem_cons_self)
      simp only [stepsAt, ofFunction, h.isKnown hname]
    | variableDecl decl =>
      exact List.flatMap_congr fun declarator hd => variableSteps_widens options h hsite rfl hd
    | interfaceDecl decl =>
      refine interfaceSteps_widens options h (hp.hasInterface_iff.mpr ⟨decl, ?_⟩)
      exact List.mem_flatMap.mpr ⟨_, hmem, List.mem_cons_self⟩
    | _ => rfl

end Steps

end Setting

namespace Heritage

section Widened

variable {whole part : Index} {scope : String}
  {expand : String → List String → Except MemberError Gathered}

theorem ofBases_widens {bases : List Expr}
    (h : ∀ base ∈ bases, baseName? whole scope base = baseName? part scope base) :
    ofBases whole scope expand bases = ofBases part scope expand bases := by
  induction bases with
  | nil => rfl
  | cons base bases ih =>
    have hrest := ih (fun later hlater => h later (List.mem_cons_of_mem _ hlater))
    funext visited
    rw [ofBases, ofBases, h base List.mem_cons_self, hrest]

theorem ofDecls_widens {describe : Member → Except MemberError Node} {decls : List InterfaceDecl}
    (h : ∀ decl ∈ decls, ∀ base ∈ decl.bases,
      baseName? whole scope base = baseName? part scope base) :
    ofDecls whole scope describe expand decls = ofDecls part scope describe expand decls := by
  induction decls with
  | nil => rfl
  | cons decl decls ih =>
    have hrest := ih (fun later hlater => h later (List.mem_cons_of_mem _ hlater))
    funext visited
    rw [ofDecls, ofDecls, ofBases_widens (h decl List.mem_cons_self), hrest]

end Widened

/-- An interface that is apart has the same members in the whole: its bases mean the same there, and
all of them are interfaces of the part. -/
theorem members_widens {whole part : FiledIndex} {away : List String} (h : whole.Widens part away)
    (role : Role) (depth : Nat) {name : String} (hname : Name.Apart away name) (scope : String)
    (visited : List String) :
    members whole role depth name scope visited = members part role depth name scope visited := by
  induction depth generalizing name scope visited with
  | zero => rfl
  | succ depth ih =>
    have hbases : ∀ decl ∈ part.interfaces name, ∀ base ∈ decl.bases,
        baseName? whole (Name.parent name) base = baseName? part (Name.parent name) base := by
      intro decl hdecl base hbase
      unfold baseName?
      cases htext : base.entityText with
      | none => rfl
      | some text =>
        have hsought : text ∈ decl.references :=
          List.mem_append_left _ (List.mem_filterMap.mpr ⟨base, hbase, htext⟩)
        exact h.lookup (h.references name decl hdecl text hsought) hname.parent
    rw [members_eq, members_eq, h.interfaces name hname, ofDecls_widens hbases]
    refine ofDecls_congr (moved_grows (members_grows whole role depth) scope) ?_
    intro parent v _ _ hi
    rw [moved, moved, ih (h.declared parent hi)]

end Heritage

namespace Setting

section Run

variable {whole part : FiledIndex} {away : List String} {options : Options}

theorem interfaceNodes_widens (h : whole.Widens part away)
    (hobject : ∀ interface, (Setting.mk whole options).takesObject interface =
      (Setting.mk part options).takesObject interface)
    {interface : String} (hi : Name.Apart away interface) (role : Role) (binding : String) :
    (Setting.mk whole options).interfaceNodes interface role binding =
      (Setting.mk part options).interfaceNodes interface role binding := by
  rw [interfaceNodes_depth (Setting.mk whole options) interface role binding
      (Nat.le_add_right _ (Heritage.depthFor part)),
    interfaceNodes_depth (Setting.mk part options) interface role binding
      (Nat.le_add_left _ (Heritage.depthFor whole))]
  simp only [hobject, Heritage.members_widens h role _ hi]
  cases htakes : (Setting.mk part options).takesObject interface with
  | false => simp only [Bool.false_and, Bool.false_eq_true, if_false]
  | true =>
    -- the part takes the members of `Object` only if it declares it, so that it is apart as well
    have happart : Name.Apart away objectName :=
      h.declared objectName ((takesObject_iff _ interface).mp htakes).2.2.2
    simp only [Heritage.inherited, Heritage.moved, Heritage.members_widens h role _ happart]

theorem performAll_widens (h : whole.Widens part away)
    (hobject : ∀ interface, (Setting.mk whole options).takesObject interface =
      (Setting.mk part options).takesObject interface) {steps : List Step}
    (hsteps : ∀ interface role binding, .request interface role binding ∈ steps →
      Name.Apart away interface) :
    (Setting.mk whole options).performAll steps = (Setting.mk part options).performAll steps := by
  induction steps with
  | nil => rfl
  | cons step steps ih =>
    have hstep : (Setting.mk whole options).perform step =
        (Setting.mk part options).perform step := by
      cases step with
      | node emitted => rfl
      | inline binding members => rfl
      | request interface role binding =>
        have hi := hsteps interface role binding List.mem_cons_self
        rw [perform, perform, describeInterface, describeInterface,
          interfaceNodes_widens h hobject hi]
    have hrest := ih (fun interface role binding hmem =>
      hsteps interface role binding (List.mem_cons_of_mem _ hmem))
    rw [performAll, performAll, hstep, hrest]

end Run

end Setting

end AmbientCatalog
