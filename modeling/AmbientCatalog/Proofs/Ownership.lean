import AmbientCatalog.Proofs.Requests

/-!
# Where nodes stand

Every node of a catalog stands under the name of a declaration: its id is that name or continues it
after a dot, and its name is its id. A statement gives the nodes of its own declaration and of an
inline type, and an interface gives nodes to the variables and functions that it describes, or that
have a type which constructs it.
-/

set_option autoImplicit false

namespace AmbientCatalog

namespace Name

def Within (outer name : String) : Prop :=
  name = outer ∨ (outer ++ ".").toList <+: name.toList

instance (outer name : String) : Decidable (Within outer name) :=
  inferInstanceAs (Decidable (name = outer ∨ (outer ++ ".").toList <+: name.toList))

theorem within_qualify {scope : String} (h : scope ≠ "") (name : String) :
    Within scope (qualify name scope) := by
  by_cases hn : name = ""
  · exact .inl (by simp [hn])
  · exact .inr ⟨name.toList, by simp [toList_qualify hn h]⟩

theorem Within.trans {outer middle name : String} (h : Within outer middle)
    (h' : Within middle name) : Within outer name := by
  rcases h with rfl | h
  · exact h'
  · rcases h' with rfl | h'
    · exact .inr h
    · have hmiddle : middle.toList <+: (middle ++ ".").toList := by simp
      exact .inr (h.trans (hmiddle.trans h'))

theorem Within.ne_empty {outer name : String} (h : Within outer name) (ho : outer ≠ "") :
    name ≠ "" := by
  rcases h with rfl | h
  · exact ho
  · rintro rfl
    simp at h

end Name

def namespacesIn (scope : String) : List String → List String
  | [] => []
  | part :: parts => Name.qualify part scope :: namespacesIn (Name.qualify part scope) parts

theorem namespacesIn_ne_empty {scope : String} {parts : List String}
    (h : ∀ part ∈ parts, part ≠ "") : ∀ name ∈ namespacesIn scope parts, name ≠ "" := by
  induction parts generalizing scope with
  | nil => simp [namespacesIn]
  | cons part parts ih =>
    intro name hname
    rcases List.mem_cons.mp hname with rfl | hname
    · exact Name.qualify_ne_empty (h part List.mem_cons_self) scope
    · exact ih (fun p hp => h p (List.mem_cons_of_mem _ hp)) name hname

theorem stepwise_mem_namespacesIn (scope : String) (parts : List String) :
    Nesting.stepwise scope parts = scope ∨
      Nesting.stepwise scope parts ∈ namespacesIn scope parts := by
  induction parts generalizing scope with
  | nil => exact .inl rfl
  | cons part parts ih =>
    refine .inr ?_
    rcases ih (Name.qualify part scope) with heq | hmem
    · exact List.mem_cons.mpr (.inl heq)
    · exact List.mem_cons_of_mem _ hmem

theorem Setting.namespaceNodes_eq (isDeclared : Bool) (scope : String) (parts : List String) :
    (namespaceNodes isDeclared scope parts).1 =
      (namespacesIn scope parts).map (namespaceNode isDeclared) := by
  induction parts generalizing scope with
  | nil => rfl
  | cons part parts ih => exact congrArg (namespaceNode isDeclared _ :: ·) (ih _)

namespace Site

def values (site : Site) : List String :=
  match site.decl? with
  | some (.functionDecl decl) => [Name.qualify decl.name site.scope]
  | some (.variableDecl decl) => (decl.declarators.filterMap Declarator.name?).map
      (fun name => Name.qualify name site.scope)
  | _ => []

def owners (site : Site) : List String :=
  match site.decl? with
  | some (.classDecl decl) => [Name.qualify decl.name site.scope]
  | some (.namespaceDecl _ parts _) => namespacesIn site.scope parts
  | _ => site.values

theorem owner_of_value {site : Site} {name : String} (h : name ∈ site.values) :
    name ∈ site.owners := by
  obtain ⟨specifier, scope, start, decl?⟩ := site
  cases decl? with
  | none => exact h
  | some declared =>
    cases declared with
    | classDecl decl => simp [values] at h
    | namespaceDecl isDeclared parts items => simp [values] at h
    | _ => exact h

theorem value_of_declarator {site : Site} {decl : VariableDecl} {name : String}
    {type : Option TypeExpr} (h : site.decl? = some (.variableDecl decl))
    (hd : .ident name type ∈ decl.declarators) : Name.qualify name site.scope ∈ site.values := by
  have hname : name ∈ decl.declarators.filterMap Declarator.name? :=
    List.mem_filterMap.mpr ⟨_, hd, rfl⟩
  rw [values, h]
  exact List.mem_map_of_mem hname

theorem value_of_recorded {site : Site} {name typeName : String}
    (h : (name, typeName) ∈ site.annotations) : name ∈ site.values := by
  obtain ⟨⟨_, type⟩, htyped, heq⟩ := List.mem_map.mp h
  obtain ⟨rfl, -⟩ := Prod.mk.inj heq
  obtain ⟨specifier, scope, start, decl?⟩ := site
  cases decl? with
  | none => simp [typedFunctions, typedVariables] at htyped
  | some declared =>
    cases declared with
    | functionDecl decl =>
      simp only [typedFunctions, typedVariables, List.append_nil, List.mem_map, Prod.mk.injEq]
        at htyped
      obtain ⟨_, -, hname, -⟩ := htyped
      simp [values, ← hname]
    | variableDecl decl =>
      simp only [typedFunctions, typedVariables, List.nil_append, List.mem_filterMap] at htyped
      obtain ⟨declarator, hmem, htype⟩ := htyped
      cases declarator with
      | destructured => simp [Declarator.typed?] at htype
      | ident written type? =>
        cases type? with
        | none => simp [Declarator.typed?] at htype
        | some annotated =>
          simp only [Declarator.typed?, Option.some.injEq, Prod.mk.injEq] at htype
          exact htype.1 ▸ value_of_declarator rfl hmem
    | _ => simp [typedFunctions, typedVariables] at htyped

inductive States (site : Site) : Node → Prop
  | ofFunction {decl : FunctionDecl} (h : site.decl? = some (.functionDecl decl)) :
      States site (Setting.functionNode site.scope decl)
  | ofVariable {decl : VariableDecl} {name : String} {type : Option TypeExpr}
      (h : site.decl? = some (.variableDecl decl)) (hd : .ident name type ∈ decl.declarators) :
      States site (Setting.variableNode decl (Name.qualify name site.scope) type)
  | ofInline {decl : VariableDecl} {name : String} {members : List Member} {member : Member}
      (h : site.decl? = some (.variableDecl decl))
      (hd : .ident name (some (.literalType members)) ∈ decl.declarators)
      (hm : member ∈ members) :
      States site (member.node (Name.qualify name site.scope) true)
  | ofClass {decl : ClassDecl} {node : Node} (h : site.decl? = some (.classDecl decl))
      (hn : node ∈ decl.nodes site.scope) : States site node
  | ofNamespace {isDeclared : Bool} {parts : List String} {items : List Item} {name : String}
      (h : site.decl? = some (.namespaceDecl isDeclared parts items))
      (hn : name ∈ namespacesIn site.scope parts) :
      States site (Setting.namespaceNode isDeclared name)

end Site

theorem inlineSteps_states {site : Site} {decl : VariableDecl} {name : String} {type : TypeExpr}
    (h : site.decl? = some (.variableDecl decl)) (hd : .ident name (some type) ∈ decl.declarators)
    {step : Step} (hstep : step ∈ Setting.inlineSteps (Name.qualify name site.scope) type)
    {node : Node} (hnode : node ∈ step.fixed) : site.States node := by
  cases type with
  | literalType members =>
    obtain rfl := List.mem_singleton.mp hstep
    obtain ⟨member, hmember, rfl⟩ := List.mem_map.mp hnode
    exact .ofInline h hd hmember
  | _ => simp [Setting.inlineSteps] at hstep

theorem Setting.variableSteps_states (s : Setting) {site : Site} {decl : VariableDecl}
    (h : site.decl? = some (.variableDecl decl)) {declarator : Declarator}
    (hd : declarator ∈ decl.declarators) {step : Step}
    (hstep : step ∈ s.variableSteps site.scope decl declarator) {node : Node}
    (hnode : node ∈ step.fixed) : site.States node := by
  cases declarator with
  | destructured => simp [variableSteps] at hstep
  | ident name type? =>
    have hheld : step ∈ held (s.variableSteps site.scope decl (.ident name type?)) := by
      refine List.mem_filter.mpr ⟨hstep, ?_⟩
      cases step with
      | request interface role binding => simp [Step.fixed] at hnode
      | _ => rfl
    rw [held_variableSteps, List.mem_append] at hheld
    rcases hheld with hinline | hown
    · cases type? with
      | none => simp at hinline
      | some type => exact inlineSteps_states h hd (by simpa using hinline) hnode
    · split_ifs at hown
      · simp at hown
      · obtain rfl := List.mem_singleton.mp hown
        obtain rfl := List.mem_singleton.mp hnode
        exact .ofVariable h hd

/-- What a site emits without asking for an interface: its own nodes, and placeholders. -/
theorem Setting.fixed_given (s : Setting) {site : Site} {step : Step}
    (hstep : step ∈ s.stepsAt site) {node : Node} (hnode : node ∈ step.fixed) :
    site.States node ∨ ∃ name, node = Node.placeholder name := by
  obtain ⟨specifier, scope, start, decl?⟩ := site
  cases decl? with
  | none => simp [stepsAt] at hstep
  | some declared =>
    cases declared with
    | functionDecl decl =>
      obtain ⟨own, hown, rfl⟩ := List.mem_map.mp hstep
      obtain rfl := List.mem_singleton.mp hnode
      unfold ofFunction at hown
      split_ifs at hown
      · simp at hown
      · obtain rfl := List.mem_singleton.mp hown
        exact .inl (.ofFunction rfl)
    | variableDecl decl =>
      obtain ⟨declarator, hd, hstep⟩ := List.mem_flatMap.mp hstep
      exact .inl (s.variableSteps_states rfl hd hstep hnode)
    | interfaceDecl decl =>
      dsimp only [stepsAt, interfaceSteps] at hstep
      split at hstep
      · simp at hstep
      · split at hstep
        · obtain rfl := List.mem_singleton.mp hstep
          simp [Step.fixed] at hnode
        · obtain rfl := List.mem_singleton.mp hstep
          exact .inr ⟨_, List.mem_singleton.mp hnode⟩
    | classDecl decl =>
      obtain ⟨own, hown, rfl⟩ := List.mem_map.mp hstep
      obtain rfl := List.mem_singleton.mp hnode
      exact .inl (.ofClass rfl hown)
    | namespaceDecl isDeclared parts items =>
      dsimp only [stepsAt] at hstep
      split_ifs at hstep
      · obtain ⟨own, hown, rfl⟩ := List.mem_map.mp hstep
        obtain rfl := List.mem_singleton.mp hnode
        rw [namespaceNodes_eq] at hown
        obtain ⟨name, hname, rfl⟩ := List.mem_map.mp hown
        exact .inl (.ofNamespace rfl hname)
      · simp at hstep
    | _ => simp [stepsAt] at hstep

theorem Setting.fixed_states (s : Setting) {site : Site} {step : Step}
    (hstep : step ∈ s.stepsAt site) {node : Node} (hnode : node ∈ step.fixed)
    (hplain : node.isPlaceholder = false) : site.States node := by
  rcases s.fixed_given hstep hnode with hstates | ⟨name, rfl⟩
  · exact hstates
  · rw [Node.placeholder_isPlaceholder] at hplain
    exact absurd hplain (by simp)

structure Node.StandsUnder (owner : String) (node : Node) : Prop where
  named : node.name = node.id
  within : Name.Within owner node.id

theorem Member.node_standsUnder {binding : String} (hb : binding ≠ "") (role : Role)
    (member : Member) :
    (member.node (role.scope binding) role.isStatic).StandsUnder binding where
  named := member.node_name (role.scope_ne_empty hb) role.isStatic
  within := by
    have hscope : Name.Within binding (role.scope binding) := by
      cases role with
      | ownType => exact .inl rfl
      | instanceSide => exact Name.within_qualify hb _
      | constructorSide => exact .inl rfl
    rw [member.node_id (role.scope_ne_empty hb)]
    exact hscope.trans (Name.within_qualify (role.scope_ne_empty hb) _)

def Kind.isSignature : Kind → Bool
  | .propertySignature => true
  | .methodSignature => true
  | .callSignature => true
  | .constructSignature => true
  | _ => false

theorem ClassMember.scope_within {name : String} (h : name ≠ "") (isStatic : Bool) :
    Name.Within name (ClassMember.scope name isStatic) := by
  cases isStatic with
  | false => exact Name.within_qualify h _
  | true => exact .inl rfl

theorem ClassMember.scope_ne_empty {name : String} (h : name ≠ "") (isStatic : Bool) :
    ClassMember.scope name isStatic ≠ "" :=
  (ClassMember.scope_within h isStatic).ne_empty h

theorem ClassMember.node_standsUnder {className : String} (h : className ≠ "")
    {member : ClassMember} {node : Node} (hn : member.node? className = some node) :
    node.StandsUnder className ∧ node.kind.isSignature = false := by
  have hunder : ∀ (label : String) (isStatic : Bool), Name.Within className
      (Name.qualify label (ClassMember.scope className isStatic)) := fun label isStatic =>
    (scope_within h isStatic).trans (Name.within_qualify (scope_ne_empty h isStatic) label)
  cases member with
  | constructor access params =>
    obtain rfl := Option.some.inj hn
    exact ⟨⟨rfl, Name.within_qualify h _⟩, rfl⟩
  | method form key flags signature =>
    obtain rfl := Option.some.inj hn
    obtain ⟨hid, hname, hkind⟩ := Signature.described_id _ signature
    refine ⟨⟨hname.trans hid.symm, ?_⟩, ?_⟩
    · rw [hid]
      exact hunder _ _
    · rw [hkind]
      cases form <;> rfl
  | property key flags type =>
    obtain rfl := Option.some.inj hn
    exact ⟨⟨rfl, hunder _ _⟩, rfl⟩
  | index isReadonly isStatic params type =>
    obtain rfl := Option.some.inj hn
    exact ⟨⟨rfl, hunder _ _⟩, rfl⟩
  | silent => simp [ClassMember.node?] at hn

/-- Every node that a statement gives by itself stands under something that the statement declares,
and one with the kind of an interface member under a variable or a function. -/
theorem Site.States.owner {sites : List Site} (hnames : WellNamed sites) {site : Site}
    (hsite : site ∈ sites) {node : Node} (h : site.States node) :
    ∃ owner ∈ site.owners, node.StandsUnder owner ∧
      (node.kind.isSignature = true → owner ∈ site.values) := by
  have hident := hnames site hsite
  cases h with
  | @ofFunction decl h =>
    obtain ⟨hid, hname, -⟩ := Signature.described_id _ decl.signature
    have hvalue : Name.qualify decl.name site.scope ∈ site.values := by
      simp [values, h]
    exact ⟨_, owner_of_value hvalue,
      ⟨hname.trans hid.symm, .inl hid⟩, fun _ => hvalue⟩
  | @ofVariable decl name type h hd =>
    have hvalue := value_of_declarator h hd
    exact ⟨_, owner_of_value hvalue, ⟨rfl, .inl rfl⟩,
      fun _ => hvalue⟩
  | @ofInline decl name members member h hd hm =>
    have hvalue := value_of_declarator h hd
    have hname : name ∈ site.identifiers := by
      rw [Site.identifiers, h]
      exact List.mem_filterMap.mpr ⟨_, hd, rfl⟩
    exact ⟨_, owner_of_value hvalue,
      member.node_standsUnder (Name.qualify_ne_empty (hident name hname).1 site.scope) .ownType,
      fun _ => hvalue⟩
  | @ofClass decl node h hn =>
    have hname : decl.name ∈ site.identifiers := by simp [Site.identifiers, h]
    refine ⟨Name.qualify decl.name site.scope, by simp [owners, h], ?_⟩
    rcases List.mem_cons.mp hn with rfl | hmember
    · have hkind : (decl.node (Name.qualify decl.name site.scope)).kind.isSignature = false := rfl
      exact ⟨⟨rfl, .inl rfl⟩, fun hsignature => absurd (hkind.symm.trans hsignature) (by simp)⟩
    · obtain ⟨member, -, hnode⟩ := List.mem_filterMap.mp hmember
      obtain ⟨hstands, hkind⟩ := ClassMember.node_standsUnder
        (Name.qualify_ne_empty (hident decl.name hname).1 site.scope) hnode
      exact ⟨hstands, fun hsignature => absurd (hkind.symm.trans hsignature) (by simp)⟩
  | @ofNamespace isDeclared parts items name h hn =>
    have howner : name ∈ site.owners := by rwa [owners, h]
    refine ⟨name, howner, ⟨rfl, .inl rfl⟩, ?_⟩
    exact fun hkind => absurd hkind (by simp [Setting.namespaceNode, Kind.isSignature])

end AmbientCatalog
