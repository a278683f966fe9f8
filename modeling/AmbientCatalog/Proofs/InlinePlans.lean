import AmbientCatalog.Proofs.Independence
import AmbientCatalog.Proofs.InlineTypes

/-!
# Plans with an inline type and with a named one

A variable with an inline type has a step for the members of the type. With the type named, it asks
for the new interface instead, and so does the statement of that interface. All other steps are the
same, by both indexes. The new interface has no bases, so for the variable it has the nodes of the
inline members and no others, and the two plans emit the same.
-/

set_option autoImplicit false

namespace AmbientCatalog.InlineVariable.Naming

variable {v : InlineVariable} {word : String} {index index' : FiledIndex} {before after : List Site}

section Steps

variable (h : v.Naming word index index' before after) (options : Options)

include h

theorem roleOf {interface binding : String} (hi : Name.Without word interface)
    (hb : Name.Without word binding) (type : Option String) :
    (Setting.mk index' options).roleOf interface binding type =
      (Setting.mk index options).roleOf interface binding type := by
  cases type with
  | none => rfl
  | some name =>
    by_cases hname : Name.Without word name
    · simp only [Setting.roleOf, Option.map_some, h.lookup hname (hb.parent h.identifier.1)]
    · -- whatever the name means has the word as well, and so it is not the interface
      have hmeant : ∀ index : Index,
          (index.lookup name (Name.parent binding)).getD name ≠ interface := by
        rintro index rfl
        obtain ⟨outer, hmeant⟩ := index.meant_qualified name (Name.parent binding)
        rw [hmeant] at hi
        exact hname (hi.of_qualify h.identifier.1)
      simp [Setting.roleOf, Role.classify, hmeant]

theorem constructed {interface : String} (hi : Name.Without word interface) :
    (Setting.mk index' options).constructed interface =
      (Setting.mk index options).constructed interface :=
  Setting.constructed_congr (h.elements_of_without hi) fun _ hdecl _ hname =>
    h.lookup (h.unused.interfaceReference h.inline hdecl hname) (hi.parent h.identifier.1)

theorem instanceSteps {interface binding : String} (hi : Name.Without word interface)
    (hb : Name.Without word binding) :
    (Setting.mk index' options).instanceSteps binding interface =
      (Setting.mk index options).instanceSteps binding interface := by
  simp only [Setting.instanceSteps, h.hasInterface_of_ne (h.ne_interface hb),
    h.constructs_of_ne (h.ne_interface hi), h.constructed options hi]

theorem variableSteps {site : Site} (hsite : site ∈ before ++ v.inlineSites ++ after)
    {decl : VariableDecl} (hdecl : site.decl? = some (.variableDecl decl)) {declarator : Declarator}
    (hd : declarator ∈ decl.declarators) :
    (Setting.mk index' options).variableSteps site.scope decl declarator =
      (Setting.mk index options).variableSteps site.scope decl declarator := by
  cases declarator with
  | destructured => rfl
  | ident name type? =>
    cases type? with
    | none => rfl
    | some type =>
      have hb : Name.Without word (Name.qualify name site.scope) :=
        h.unused.declared hsite (Site.declared_of_declarator hdecl hd)
      have hscope := h.unused.scope h.identifier.1 h.scopes hsite
      have htyped := Site.typedVariable_of_declarator hdecl hd rfl
      have htype : ∀ typeName, type.simpleName? = some typeName → Name.Without word typeName :=
        fun typeName hname => h.unused.reference hsite
          (Site.reference_of_simpleName (List.mem_append_right _ htyped) hname)
      refine Setting.variableSteps_congr decl (h.hasInterface_of_ne (h.ne_interface hb))
        (fun typeName hsimple => h.lookup (htype typeName hsimple) hscope)
        (fun interface => ?_) (fun typeName interface hsimple hl => ?_)
      · cases hsimple : type.simpleName? with
        | none => rfl
        | some typeName =>
          simp only [Setting.roleOf, Option.map_some,
            h.lookup (htype typeName hsimple) (hb.parent h.identifier.1)]
      · have hi := h.unused.hasInterface h.inline (Index.hasInterface_of_lookup hl)
        exact h.instanceSteps options hi hb

theorem bindingOf {name : String} (hi : index.hasInterface name = true) (hne : name ≠ v.binding) :
    index'.bindingOf name = index.bindingOf name := by
  have hname := h.unused.hasInterface h.inline hi
  rw [Index.bindingOf, Index.bindingOf, h.typeOf_of_ne hne,
    h.nameOfType_of_ne (h.ne_interface hname)]
  cases index.typeOf name with
  | some typeName => rfl
  | none =>
    dsimp only
    cases hn : index.nameOfType name with
    | none => rfl
    | some binding =>
      have hother : binding ≠ v.binding := fun heq => h.nameOfType_ne name (heq ▸ hn)
      simp only [Option.map_some, h.typeOf_of_ne hother]

omit h in
theorem meant_ne_binding (hv : Name.IsIdentifier v.name) (index : Index) {name : String}
    (hname : Name.IsIdentifier name) (hne : name ≠ v.name) (scope : String) :
    (index.lookup name scope).getD name ≠ v.binding := by
  obtain ⟨outer, hmeant⟩ := index.meant_qualified name scope
  rw [hmeant]
  exact fun heq => hne (Name.qualify_injective hname hv heq).1

theorem word_ne_name : word ≠ v.name := by
  rintro rfl
  exact h.ne_interface h.binding_without rfl

/-- The interface with the name of the variable stands for its instances, whether the type of the
variable is complex or named. -/
theorem roleOf_binding (index : FiledIndex) {name : String}
    (hname : name = complexTypeName ∨ name = word) :
    (Setting.mk index options).roleOf v.binding v.binding (some name) = some .instanceSide := by
  have hmeant : (index.lookup name (Name.parent v.binding)).getD name ≠ v.binding := by
    rcases hname with rfl | rfl
    · exact meant_ne_binding h.name_isIdentifier index (by decide) h.complex.symm _
    · exact meant_ne_binding h.name_isIdentifier index h.identifier h.word_ne_name _
  simp [Setting.roleOf, Role.classify, hmeant]

theorem interfaceSteps {scope : String} {decl : InterfaceDecl}
    (hi : index.hasInterface (Name.qualify decl.name scope) = true) :
    (Setting.mk index' options).interfaceSteps scope decl =
      (Setting.mk index options).interfaceSteps scope decl := by
  dsimp only [Setting.interfaceSteps]
  by_cases hname : Name.qualify decl.name scope = v.binding
  · have hold : index.bindingOf v.binding = some ⟨v.binding, some complexTypeName⟩ := by
      rw [Index.bindingOf, h.typeOf_binding.1]
    have hnew : index'.bindingOf v.binding = some ⟨v.binding, some word⟩ := by
      rw [Index.bindingOf, h.typeOf_binding.2]
    rw [hname, hold, hnew]
    dsimp only
    rw [h.roleOf_binding options index (.inl rfl), h.roleOf_binding options index' (.inr rfl)]
  · rw [h.bindingOf hi hname]
    cases hb : index.bindingOf (Name.qualify decl.name scope) with
    | none => rfl
    | some binding =>
      have hwithout := h.unused.hasInterface h.inline hi
      have hbinding : Name.Without word binding.name := by
        rcases (Index.bindingOf_eq_some.mp hb).1 with ⟨heq, -⟩ | ⟨-, hn⟩
        · exact heq ▸ hwithout
        · exact h.unused.nameOfType h.inline hn
      dsimp only
      rw [h.roleOf options hwithout hbinding]

theorem stepsAt {site : Site} (hsite : site ∈ before ++ v.inlineSites ++ after) :
    (Setting.mk index' options).stepsAt site = (Setting.mk index options).stepsAt site := by
  obtain ⟨specifier, scope, start, decl?⟩ := site
  cases decl? with
  | none => rfl
  | some declared =>
    cases declared with
    | functionDecl decl => simp only [Setting.stepsAt, Setting.ofFunction, h.isKnown]
    | variableDecl decl =>
      exact List.flatMap_congr fun declarator hd => h.variableSteps options hsite rfl hd
    | interfaceDecl decl =>
      refine h.interfaceSteps options (h.inline.hasInterface_iff.mpr ⟨decl, ?_⟩)
      exact List.mem_flatMap.mpr ⟨_, hsite, List.mem_cons_self⟩
    | _ => rfl

omit h in
theorem variableSteps_described (s : Setting) (decl : VariableDecl) {type : TypeExpr}
    (hdescribed : s.isDescribed v.binding v.scope (some type) = true) :
    s.variableSteps v.scope decl (.ident v.name (some type)) =
      s.describedSteps v.binding v.scope (some type) := by
  show s.describedSteps v.binding v.scope (some type) ++
    (if s.isDescribed v.binding v.scope (some type) = true then [] else _) = _
  rw [if_pos hdescribed, List.append_nil]

/-- With an inline type, the variable asks for its own interface and has the members of the type. -/
theorem variableSteps_inline : (Setting.mk index options).variableSteps v.scope v.inline
    (.ident v.name (some (.literalType v.members))) =
      [.request v.binding .instanceSide v.binding, .inline v.binding v.members] := by
  have hown : (Setting.mk index options).ownSteps v.binding none =
      [.request v.binding .instanceSide v.binding] := by
    rw [Setting.ownSteps, if_pos h.own, Setting.roleOf_self_none]
    rfl
  rw [variableSteps_described _ _ (by simp [Setting.isDescribed, Setting.inlineSteps])]
  show (Setting.mk index options).ownSteps v.binding none ++ [] ++
    [.inline v.binding v.members] = _
  rw [hown]
  rfl

theorem roleOf_interface : (Setting.mk index' options).roleOf (v.interface word) v.binding
    (some word) = some .constructorSide := by
  have hparent : Name.parent v.binding = v.scope :=
    Name.parent_qualify h.name_isIdentifier v.scope
  rw [Setting.roleOf_of_lookup _ (hparent.symm ▸ h.lookup_word)]
  simp [Role.classify, h.ne_interface h.binding_without]

/-- With a named type, it asks for both interfaces. -/
theorem variableSteps_named : (Setting.mk index' options).variableSteps v.scope v.inline
    (.ident v.name (some (.reference (.ident word) []))) =
      [.request v.binding .instanceSide v.binding,
        .request (v.interface word) .constructorSide v.binding] := by
  have hne := h.ne_interface h.binding_without
  have hi : index'.hasInterface v.binding = true := (h.hasInterface_of_ne hne).trans h.own
  have hown : (Setting.mk index' options).ownSteps v.binding (some word) =
      [.request v.binding .instanceSide v.binding] := by
    rw [Setting.ownSteps, if_pos hi, h.roleOf_binding options index' (.inr rfl)]
    rfl
  have hnamed : (Setting.mk index' options).namedSteps v.binding v.scope (some word) =
      [.request (v.interface word) .constructorSide v.binding] := by
    simp [Setting.namedSteps, h.lookup_word, Setting.typeSteps, hne.symm, Setting.instanceSteps, hi,
      h.roleOf_interface, Setting.requestIn]
  have hsimple : TypeExpr.simpleName? (.reference (.ident word) []) = some word := by
    simp [TypeExpr.simpleName?, EntityName.text, EntityName.parts]
  rw [variableSteps_described _ _ (by simp [Setting.isDescribed, hsimple, hown]),
    Setting.describedSteps.eq_3 _ _ _ _ (by simp), hsimple, hown, hnamed]
  rfl

theorem interfaceSteps_interface :
    (Setting.mk index' options).interfaceSteps v.scope (v.interfaceDecl word) =
      [.request (v.interface word) .constructorSide v.binding] := by
  have hbinding : index'.bindingOf (v.interface word) = some ⟨v.binding, some word⟩ := by
    simp only [Index.bindingOf, h.typeOf_interface, h.nameOfType_interface, Option.map_some,
      h.typeOf_binding.2]
  have hname : Name.qualify (v.interfaceDecl word).name v.scope = v.interface word := rfl
  dsimp only [Setting.interfaceSteps]
  rw [hname, hbinding]
  dsimp only
  rw [h.roleOf_interface]

/-- The two plans differ in the inline members and the requests for the new interface alone. -/
theorem plan_split : ∃ earlier middle later : List Step,
    (before ++ v.inlineSites ++ after).flatMap (Setting.mk index options).stepsAt =
      earlier ++ middle ++ [.inline v.binding v.members] ++ later ∧
    (before ++ v.namedSites word ++ after).flatMap (Setting.mk index' options).stepsAt =
      earlier ++ [.request (v.interface word) .constructorSide v.binding] ++ middle ++
        [.request (v.interface word) .constructorSide v.binding] ++ later := by
  have hbefore : before.flatMap (Setting.mk index' options).stepsAt =
      before.flatMap (Setting.mk index options).stepsAt :=
    List.flatMap_congr fun site hsite => h.stepsAt options
      (List.mem_append_left _ (List.mem_append_left _ hsite))
  have hafter : after.flatMap (Setting.mk index' options).stepsAt =
      after.flatMap (Setting.mk index options).stepsAt :=
    List.flatMap_congr fun site hsite => h.stepsAt options (List.mem_append_right _ hsite)
  have hothers : ∀ declarators : List Declarator,
      (∀ declarator ∈ declarators, declarator ∈ v.inline.declarators) →
      declarators.flatMap ((Setting.mk index' options).variableSteps v.scope v.inline) =
        declarators.flatMap ((Setting.mk index options).variableSteps v.scope v.inline) :=
    fun declarators hin => List.flatMap_congr fun declarator hd =>
      h.variableSteps options inlineSite_mem rfl (hin declarator hd)
  have hfirst := hothers v.before (fun declarator hd => List.mem_append_left _ hd)
  have hlast := hothers v.after
    (fun declarator hd => List.mem_append_right _ (List.mem_cons_of_mem _ hd))
  refine ⟨before.flatMap (Setting.mk index options).stepsAt,
    v.before.flatMap ((Setting.mk index options).variableSteps v.scope v.inline) ++
      [.request v.binding .instanceSide v.binding],
    v.after.flatMap ((Setting.mk index options).variableSteps v.scope v.inline) ++
      after.flatMap (Setting.mk index options).stepsAt, ?_, ?_⟩
  · rw [List.flatMap_append, List.flatMap_append, v.steps_inline, h.variableSteps_inline]
    simp
  · rw [List.flatMap_append, List.flatMap_append, v.steps_named, h.variableSteps_named,
      h.interfaceSteps_interface, hbefore, hafter, hfirst, hlast]
    simp

end Steps

section Members

variable (h : v.Naming word index index' before after)

include h

theorem extends_iff {child parent : String} (hchild : Name.Without word child) :
    index'.Extends child parent ↔ index.Extends child parent := by
  unfold Index.Extends
  rw [h.interfaces_of_ne (h.ne_interface hchild)]
  refine exists_congr fun decl => and_congr_right fun hdecl => exists_congr fun base =>
    and_congr_right fun hbase => exists_congr fun text => and_congr_right fun htext => ?_
  have hreference : Name.Without word text := h.unused.interfaceReference h.inline hdecl
    (List.mem_append_left _ (List.mem_filterMap.mpr ⟨base, hbase, htext⟩))
  rw [h.lookup hreference (hchild.parent h.identifier.1)]

theorem without_of_reaches {interface name : String} (hi : Name.Without word interface)
    (hreaches : index.Reaches interface name) : Name.Without word name := by
  cases hreaches with
  | refl => exact hi
  | tail _ hextends =>
    obtain ⟨_, _, _, _, text, _, hl⟩ := hextends
    exact h.unused.hasInterface h.inline (Index.hasInterface_of_lookup hl)

theorem reaches_iff {interface name : String} (hi : Name.Without word interface) :
    index'.Reaches interface name ↔ index.Reaches interface name := by
  constructor
  · intro hreaches
    induction hreaches with
    | refl => exact .refl
    | tail _ hextends ih =>
      exact ih.tail ((h.extends_iff (h.without_of_reaches hi ih)).mp hextends)
  · intro hreaches
    induction hreaches with
    | refl => exact .refl
    | tail hreaches hextends ih =>
      exact ih.tail ((h.extends_iff (h.without_of_reaches hi hreaches)).mpr hextends)

theorem reaches_interface_iff {name : String} :
    index'.Reaches (v.interface word) name ↔ name = v.interface word := by
  constructor
  · intro hreaches
    rcases hreaches.cases_head with heq | ⟨parent, ⟨decl, hdecl, base, hbase, -⟩, -⟩
    · exact heq.symm
    · rw [h.interfaces_interface.2, List.mem_singleton] at hdecl
      rw [hdecl] at hbase
      exact absurd hbase List.not_mem_nil
  · rintro rfl
    exact .refl

variable {options : Options} (hoff : options.objectHeritage = false)

include hoff

theorem bears_iff {interface binding : String} {role : Role} {node : Node}
    (hi : Name.Without word interface) :
    (Setting.mk index' options).Bears interface role binding node ↔
      (Setting.mk index options).Bears interface role binding node := by
  have hbrings : ∀ name, (Setting.mk index' options).Brings interface name ↔
      (Setting.mk index options).Brings interface name := by
    intro name
    simp [Setting.Brings, hoff, h.reaches_iff hi]
  refine exists_congr fun name => ?_
  rw [hbrings]
  refine and_congr_right fun hname => ?_
  have hreaches : index.Reaches interface name := by simpa [Setting.Brings, hoff] using hname
  simp only [h.elements_of_without (h.without_of_reaches hi hreaches)]

/-- The new interface gives the variable the nodes of the inline type. -/
theorem bears_interface_iff {node : Node} :
    (Setting.mk index' options).Bears (v.interface word) .constructorSide v.binding node ↔
      node ∈ (Step.inline v.binding v.members).fixed := by
  have helements : index'.elements (v.interface word) = v.members := by
    rw [Index.elements, h.interfaces_interface.2]
    exact List.flatMap_singleton ..
  have hbrings : ∀ name, (Setting.mk index' options).Brings (v.interface word) name ↔
      name = v.interface word := by
    intro name
    simp [Setting.Brings, hoff, h.reaches_interface_iff]
  simp only [Setting.Bears, hbrings, exists_eq_left, helements, Step.fixed, List.mem_map, eq_comm]
  rfl

end Members

section Emits

variable (h : v.Naming word index index' before after) (options : Options)

include h

theorem request_without {interface binding : String} {role : Role}
    (hrequest : .request interface role binding ∈
      (before ++ v.inlineSites ++ after).flatMap (Setting.mk index options).stepsAt) :
    Name.Without word interface :=
  h.unused.hasInterface h.inline (Setting.request_hasInterface h.inline hrequest)

theorem firstRole_of_ne {interface : String} (hne : interface ≠ v.interface word)
    (binding : String) :
    firstRole interface binding
      ((before ++ v.namedSites word ++ after).flatMap (Setting.mk index' options).stepsAt) =
    firstRole interface binding
      ((before ++ v.inlineSites ++ after).flatMap (Setting.mk index options).stepsAt) := by
  obtain ⟨earlier, middle, later, hinline, hnamed⟩ := h.plan_split options
  rw [hinline, hnamed]
  simp [firstRole, List.findSome?_append, List.findSome?_cons, Step.roleFor, hne.symm]

/-- The new interface is asked for as the type of the variable and in no other way. -/
theorem firstRole_interface {binding : String} {role : Role} :
    firstRole (v.interface word) binding
      ((before ++ v.namedSites word ++ after).flatMap (Setting.mk index' options).stepsAt) =
        some role ↔ role = .constructorSide ∧ binding = v.binding := by
  obtain ⟨earlier, middle, later, hinline, hnamed⟩ := h.plan_split options
  have hrequests : ∀ role', .request (v.interface word) role' binding ∈
      (before ++ v.namedSites word ++ after).flatMap (Setting.mk index' options).stepsAt ↔
        role' = .constructorSide ∧ binding = v.binding := by
    intro role'
    have hold : .request (v.interface word) role' binding ∉
        (before ++ v.inlineSites ++ after).flatMap (Setting.mk index options).stepsAt :=
      fun hmem => h.interface_with (h.request_without options hmem)
    rw [hinline] at hold
    rw [hnamed]
    simp only [List.mem_append, List.mem_singleton, Step.request.injEq, not_or] at hold ⊢
    tauto
  have hsettles : Settles (v.interface word) binding .constructorSide
      ((before ++ v.namedSites word ++ after).flatMap (Setting.mk index' options).stepsAt) :=
    .of_forall fun role' hmem => ((hrequests role').mp hmem).1
  rw [hsettles.firstRole_eq]
  simp only [hrequests, exists_eq_left]

/-- Apart from the inline members, both plans hold the same nodes. -/
theorem fixed_iff {node : Node} :
    (∃ step ∈ (before ++ v.inlineSites ++ after).flatMap (Setting.mk index options).stepsAt,
      node ∈ step.fixed) ↔
    (∃ step ∈ (before ++ v.namedSites word ++ after).flatMap (Setting.mk index' options).stepsAt,
      node ∈ step.fixed) ∨ node ∈ (Step.inline v.binding v.members).fixed := by
  obtain ⟨earlier, middle, later, hinline, hnamed⟩ := h.plan_split options
  have hrequest : (Step.request (v.interface word) .constructorSide v.binding).fixed = [] := rfl
  simp only [hinline, hnamed, List.mem_append, List.mem_singleton, or_and_right, exists_or,
    exists_eq_left, hrequest, List.not_mem_nil, or_false]
  exact or_right_comm

/-- Both plans emit the same nodes. -/
theorem emits_iff (hoff : options.objectHeritage = false) (node : Node) :
    (Setting.mk index options).Emits []
        ((before ++ v.inlineSites ++ after).flatMap (Setting.mk index options).stepsAt) node ↔
      (Setting.mk index' options).Emits []
        ((before ++ v.namedSites word ++ after).flatMap (Setting.mk index' options).stepsAt)
        node := by
  have hwithout : ∀ {interface binding role}, firstRole interface binding
      ((before ++ v.inlineSites ++ after).flatMap (Setting.mk index options).stepsAt) = some role →
        Name.Without word interface := by
    intro interface binding role hfirst
    obtain ⟨step, hmem, hrole⟩ := List.exists_of_findSome?_eq_some hfirst
    exact h.request_without options (Step.roleFor_eq_some.mp hrole ▸ hmem)
  rw [Setting.Emits, Setting.Emits, h.fixed_iff options]
  constructor
  · rintro ((hfixed | hinline) | ⟨interface, binding, role, hnew, hfirst, hbears⟩)
    · exact .inl hfixed
    · exact .inr ⟨v.interface word, v.binding, .constructorSide, List.not_mem_nil,
        (h.firstRole_interface options).mpr ⟨rfl, rfl⟩, (h.bears_interface_iff hoff).mpr hinline⟩
    · have hi := hwithout hfirst
      exact .inr ⟨interface, binding, role, hnew,
        (h.firstRole_of_ne options (h.ne_interface hi) binding).trans hfirst,
        (h.bears_iff hoff hi).mpr hbears⟩
  · rintro (hfixed | ⟨interface, binding, role, hnew, hfirst, hbears⟩)
    · exact .inl (.inl hfixed)
    · by_cases hne : interface = v.interface word
      · subst hne
        obtain ⟨rfl, rfl⟩ := (h.firstRole_interface options).mp hfirst
        exact .inl (.inr ((h.bears_interface_iff hoff).mp hbears))
      · rw [h.firstRole_of_ne options hne] at hfirst
        exact .inr ⟨interface, binding, role, hnew, hfirst,
          (h.bears_iff hoff (hwithout hfirst)).mp hbears⟩

end Emits

end AmbientCatalog.InlineVariable.Naming
