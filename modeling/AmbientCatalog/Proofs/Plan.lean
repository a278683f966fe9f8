import AmbientCatalog.Proofs.Closure
import AmbientCatalog.Proofs.Walk

/-!
# The plan of a survey

What a survey does at a site is settled by the index alone, except that an interface is described
only once for a variable. So the survey has a plan, a list of steps that does not depend on what has
been described before, and carrying out the plan is all that is left: a node is emitted, the members
of an inline type are described, or an interface is asked for in a role. A catalog is what the plan
of all sites yields.
-/

set_option autoImplicit false

namespace AmbientCatalog

inductive Step where
  | node (node : Node)
  | inline (binding : String) (members : List Member)
  | request (interface : String) (role : Role) (binding : String)

namespace Setting

def perform (s : Setting) : Step → Survey (List Node)
  | .node node => return [node]
  | .inline binding members => liftM (members.mapM (Member.resolve binding true))
  | .request interface role binding => s.describeInterface interface role binding

def performAll (s : Setting) : List Step → Survey (List Node)
  | [] => return []
  | step :: steps => do
    let nodes ← s.perform step
    let others ← s.performAll steps
    return nodes ++ others

theorem performAll_cons (s : Setting) (step : Step) (steps : List Step)
    (done : List (String × String)) :
    s.performAll (step :: steps) done = (do
      let (nodes, done) ← s.perform step done
      let (others, done) ← s.performAll steps done
      return (nodes ++ others, done)) := rfl

theorem performAll_congr {s s' : Setting} (h : ∀ step, s.perform step = s'.perform step)
    (steps : List Step) : s.performAll steps = s'.performAll steps := by
  induction steps with
  | nil => rfl
  | cons step steps ih => rw [performAll, performAll, h, ih]

theorem performAll_append (s : Setting) (steps more : List Step) :
    s.performAll (steps ++ more) = (do
      let nodes ← s.performAll steps
      let others ← s.performAll more
      return nodes ++ others) := by
  induction steps with
  | nil => simp [performAll]
  | cons step steps ih =>
    simp only [performAll, List.cons_append, ih, bind_assoc, pure_bind, List.append_assoc]

theorem performAll_singleton (s : Setting) (step : Step) :
    s.performAll [step] = s.perform step := by
  simp [performAll]

theorem performAll_nodes (s : Setting) (nodes : List Node) :
    s.performAll (nodes.map .node) = pure nodes := by
  induction nodes with
  | nil => rfl
  | cons node nodes ih => simp [performAll, perform, ih]

def requestIn (interface : String) (role : Option Role) (binding : String) : List Step :=
  role.toList.map (fun role => .request interface role binding)

def ownSteps (s : Setting) (binding : String) (type : Option String) : List Step :=
  if s.index.hasInterface binding then requestIn binding (s.roleOf binding binding type) binding
  else []

def typeSteps (s : Setting) (binding interface : String) (type : Option String) : List Step :=
  if interface ≠ binding then requestIn interface (s.roleOf interface binding type) binding
  else []

def instanceSteps (s : Setting) (binding interface : String) : List Step :=
  if !s.index.hasInterface binding && s.index.isConstructorType interface then
    ((s.constructed interface).filter (fun instance_ => instance_ ≠ binding)).map
      (fun instance_ => .request instance_ .instanceSide binding)
  else []

def inlineSteps (binding : String) : TypeExpr → List Step
  | .literalType members => [.inline binding members]
  | _ => []

def namedSteps (s : Setting) (binding scope : String) (type : Option String) : List Step :=
  match type.bind (fun name => s.index.lookup name scope) with
  | some interface => s.typeSteps binding interface type ++ s.instanceSteps binding interface
  | none => []

def describedSteps (s : Setting) (binding scope : String) : Option TypeExpr → List Step
  | none => []
  | some (.keyword _) => []
  | some type => s.ownSteps binding type.simpleName? ++ s.namedSteps binding scope type.simpleName?
      ++ inlineSteps binding type

def isDescribed (s : Setting) (binding scope : String) : Option TypeExpr → Bool
  | none => false
  | some (.keyword _) => false
  | some type => !(s.ownSteps binding type.simpleName?).isEmpty
      || (match type.simpleName?.bind (fun name => s.index.lookup name scope) with
        | some interface => !(s.typeSteps binding interface type.simpleName?).isEmpty
        | none => false)
      || !(inlineSteps binding type).isEmpty

def variableSteps (s : Setting) (scope : String) (decl : VariableDecl) : Declarator → List Step
  | .destructured => []
  | .ident name type =>
    let binding := Name.qualify name scope
    s.describedSteps binding scope type ++
      (if s.isDescribed binding scope type then []
      else [.node (variableNode decl binding type)])

/-- The steps of a typed variable depend on what its own name and its type name mean, on the roles
that these have and on what its type constructs. -/
theorem variableSteps_congr {s s' : Setting} {scope name : String} {type : TypeExpr}
    (decl : VariableDecl)
    (hown : s.index.hasInterface (Name.qualify name scope) =
      s'.index.hasInterface (Name.qualify name scope))
    (hlookup : ∀ typeName, type.simpleName? = some typeName →
      s.index.lookup typeName scope = s'.index.lookup typeName scope)
    (hrole : ∀ interface, s.roleOf interface (Name.qualify name scope) type.simpleName? =
      s'.roleOf interface (Name.qualify name scope) type.simpleName?)
    (hbuilt : ∀ typeName interface, type.simpleName? = some typeName →
      s'.index.lookup typeName scope = some interface →
        s.instanceSteps (Name.qualify name scope) interface =
          s'.instanceSteps (Name.qualify name scope) interface) :
    s.variableSteps scope decl (.ident name (some type)) =
      s'.variableSteps scope decl (.ident name (some type)) := by
  have hmeant : (type.simpleName?.bind fun typeName => s.index.lookup typeName scope) =
      type.simpleName?.bind fun typeName => s'.index.lookup typeName scope :=
    Option.bind_congr hlookup
  have howns : s.ownSteps (Name.qualify name scope) type.simpleName? =
      s'.ownSteps (Name.qualify name scope) type.simpleName? := by
    simp only [ownSteps, hown, hrole]
  have htypes : ∀ interface, s.typeSteps (Name.qualify name scope) interface type.simpleName? =
      s'.typeSteps (Name.qualify name scope) interface type.simpleName? := by
    intro interface
    simp only [typeSteps, hrole]
  have hnamed : s.namedSteps (Name.qualify name scope) scope type.simpleName? =
      s'.namedSteps (Name.qualify name scope) scope type.simpleName? := by
    unfold namedSteps
    rw [hmeant]
    cases hfound : type.simpleName?.bind fun typeName => s'.index.lookup typeName scope with
    | none => rfl
    | some interface =>
      obtain ⟨typeName, hsimple, hl⟩ := Option.bind_eq_some_iff.mp hfound
      dsimp only
      rw [htypes, hbuilt typeName interface hsimple hl]
  by_cases hkeyword : ∃ word, type = .keyword word
  · obtain ⟨word, rfl⟩ := hkeyword
    rfl
  -- the match on the type only sorts out keywords, so the other types are treated at once
  have hother : ∀ word, type = .keyword word → False := fun word heq => hkeyword ⟨word, heq⟩
  simp only [variableSteps, describedSteps.eq_3 _ _ _ _ hother, isDescribed.eq_3 _ _ _ _ hother,
    howns, hnamed, hmeant, htypes]

def interfaceSteps (s : Setting) (scope : String) (decl : InterfaceDecl) : List Step :=
  let name := Name.qualify decl.name scope
  match s.index.bindingOf name with
  | none => []
  | some binding =>
    match s.roleOf name binding.name binding.typeName with
    | some role => [.request name role binding.name]
    | none => [.node (Node.placeholder name)]

def stepsAt (s : Setting) (site : Site) : List Step :=
  match site.decl? with
  | some (.functionDecl decl) => (s.ofFunction site.scope decl).map .node
  | some (.variableDecl decl) => decl.declarators.flatMap (s.variableSteps site.scope decl)
  | some (.interfaceDecl decl) => s.interfaceSteps site.scope decl
  | some (.classDecl decl) => (decl.nodes site.scope).map .node
  | some (.namespaceDecl isDeclared parts _) =>
    if s.options.namespaceNodes then (namespaceNodes isDeclared site.scope parts).1.map .node
    else []
  | _ => []

def Follows (s : Setting) (action : Survey (Option (List Node))) (steps : List Step) : Prop :=
  action = if steps.isEmpty then pure none else some <$> s.performAll steps

theorem requestIn_follows (s : Setting) (interface : String) (role : Option Role)
    (binding : String) :
    s.Follows (match role with
      | some role => some <$> s.describeInterface interface role binding
      | none => return none) (requestIn interface role binding) := by
  cases role with
  | none => rfl
  | some role => simp [Follows, requestIn, performAll_singleton, perform]

theorem ownInterface_follows (s : Setting) (binding : String) (type : Option String) :
    s.Follows (s.ownInterface binding type) (s.ownSteps binding type) := by
  unfold ownInterface ownSteps
  split_ifs
  · exact requestIn_follows s binding _ binding
  · rfl

theorem typeInterface_follows (s : Setting) (binding interface : String) (type : Option String) :
    s.Follows (s.typeInterface binding interface type) (s.typeSteps binding interface type) := by
  unfold typeInterface typeSteps
  split_ifs
  · exact requestIn_follows s interface _ binding
  · rfl

theorem inlineMembers_follows (s : Setting) (binding : String) (type : TypeExpr) :
    s.Follows (inlineMembers binding type) (inlineSteps binding type) := by
  cases type with
  | literalType members =>
    rw [Follows, inlineSteps, performAll_singleton, perform, inlineMembers]
    funext done
    cases members.mapM (Member.resolve binding true) <;> rfl
  | _ => rfl

theorem describeInstances_eq (s : Setting) (binding : String) (interfaces : List String) :
    s.describeInstances binding interfaces =
      s.performAll ((interfaces.filter (fun interface => interface ≠ binding)).map
        (fun interface => .request interface .instanceSide binding)) := by
  induction interfaces with
  | nil => rfl
  | cons interface rest ih =>
    by_cases h : interface = binding
    · simp [describeInstances, h, ih]
    · simp [describeInstances, h, ih, performAll, perform]

theorem instances_eq (s : Setting) (binding interface : String) :
    s.instances binding interface = s.performAll (s.instanceSteps binding interface) := by
  unfold instances instanceSteps
  split_ifs
  · exact s.describeInstances_eq binding _
  · rfl

theorem describedVariable_eq (s : Setting) (binding scope : String) (type : Option TypeExpr) :
    s.describedVariable binding scope type =
      (fun nodes => (nodes, s.isDescribed binding scope type)) <$>
        s.performAll (s.describedSteps binding scope type) := by
  cases type with
  | none => rfl
  | some type =>
    by_cases hkeyword : ∃ word, type = .keyword word
    · obtain ⟨word, rfl⟩ := hkeyword
      rfl
    -- the match on the type only sorts out keywords, so the other types are treated at once
    have hother : ∀ word, type = .keyword word → False := fun word h => hkeyword ⟨word, h⟩
    rw [describedVariable.eq_3 _ _ _ _ hother, describedSteps.eq_3 _ _ _ _ hother,
      isDescribed.eq_3 _ _ _ _ hother, s.ownInterface_follows binding,
      s.inlineMembers_follows binding, performAll_append, performAll_append, namedSteps]
    cases type.simpleName?.bind (fun name => s.index.lookup name scope) with
    | none =>
      cases s.ownSteps binding type.simpleName? <;> cases inlineSteps binding type <;>
        simp [performAll]
    | some interface =>
      rw [performAll_append]
      simp only
      rw [s.typeInterface_follows binding, s.instances_eq]
      cases s.ownSteps binding type.simpleName? <;> cases inlineSteps binding type <;>
        cases s.typeSteps binding interface type.simpleName? <;> simp [performAll]

theorem ofVariable_eq (s : Setting) (scope : String) (decl : VariableDecl)
    (declarator : Declarator) :
    s.ofVariable scope decl declarator = s.performAll (s.variableSteps scope decl declarator) := by
  cases declarator with
  | destructured => rfl
  | ident name type =>
    rw [ofVariable, describedVariable_eq, variableSteps, performAll_append]
    cases s.isDescribed (Name.qualify name scope) scope type <;> simp [performAll, perform]

theorem ofVariables_eq (s : Setting) (scope : String) (decl : VariableDecl)
    (declarators : List Declarator) :
    s.ofVariables scope decl declarators =
      s.performAll (declarators.flatMap (s.variableSteps scope decl)) := by
  induction declarators with
  | nil => rfl
  | cons declarator rest ih =>
    rw [ofVariables, ofVariable_eq, ih, List.flatMap_cons, performAll_append]

theorem ofInterface_eq (s : Setting) (scope : String) (decl : InterfaceDecl) :
    s.ofInterface scope decl = s.performAll (s.interfaceSteps scope decl) := by
  dsimp only [ofInterface, interfaceSteps]
  cases s.index.bindingOf (Name.qualify decl.name scope) with
  | none => rfl
  | some binding =>
    dsimp only
    cases s.roleOf (Name.qualify decl.name scope) binding.name binding.typeName with
    | none => simp [performAll, perform]
    | some role => simp [performAll, perform]

end Setting

def Site.diagnostics (site : Site) : List Diagnostic :=
  match site.decl? with
  | none => [⟨site.specifier, site.start⟩]
  | some .enumDecl => [⟨site.specifier, site.start⟩]
  | some .usingDecl => [⟨site.specifier, site.start⟩]
  | _ => []

namespace Setting

def sorted (found : List Finding) : List Node × List Diagnostic :=
  (found.filterMap Finding.node?, found.filterMap Finding.diagnostic?)

def Yields (s : Setting) (survey : Survey (List Finding)) (sites : List Site) : Prop :=
  sorted <$> survey =
    (fun nodes => (nodes, sites.flatMap Site.diagnostics)) <$>
      s.performAll (sites.flatMap s.stepsAt)

theorem sorted_entries (nodes : List Node) : sorted (entries nodes) = (nodes, []) := by
  simp [sorted, entries, List.filterMap_map, Function.comp_def, Finding.node?, Finding.diagnostic?]

theorem yields_nothing (s : Setting) : s.Yields (return []) [] := rfl

theorem yields_nodes (s : Setting) {site : Site} (h : site.diagnostics = [])
    {nodes : Survey (List Node)} (hn : nodes = s.performAll (s.stepsAt site)) :
    s.Yields (return entries (← nodes)) [site] := by
  simp [Yields, hn, h, sorted_entries]

theorem yields_fixed (s : Setting) {site : Site} (h : site.diagnostics = []) {nodes : List Node}
    (hn : s.stepsAt site = nodes.map .node) : s.Yields (return entries nodes) [site] := by
  simp [Yields, h, hn, performAll_nodes, sorted_entries]

theorem yields_diagnostic (s : Setting) {site : Site} {diagnostic : Diagnostic}
    (h : site.diagnostics = [diagnostic]) (hsteps : s.stepsAt site = []) :
    s.Yields (return [.unsupported diagnostic]) [site] := by
  simp [Yields, h, hsteps, performAll]
  rfl

theorem yields_append (s : Setting) {survey survey' : Survey (List Finding)}
    {sites sites' : List Site} (h : s.Yields survey sites) (h' : s.Yields survey' sites') :
    s.Yields (do
      let found ← survey
      let others ← survey'
      return found ++ others) (sites ++ sites') := by
  have hsplit : sorted <$> (do
      let found ← survey
      let others ← survey'
      return found ++ others) = (do
      let first ← sorted <$> survey
      let second ← sorted <$> survey'
      return (first.1 ++ second.1, first.2 ++ second.2) :
        Survey (List Node × List Diagnostic)) := by
    simp [sorted]
  rw [Yields, hsplit, h, h']
  simp [performAll_append]

theorem namespaceNodes_scope (isDeclared : Bool) (scope : String) (parts : List String) :
    (namespaceNodes isDeclared scope parts).2 = Nesting.stepwise scope parts := by
  induction parts generalizing scope with
  | nil => rfl
  | cons part parts ih => exact ih _

mutual
theorem ofDecl_yields (s : Setting) (specifier scope : String) (start : Position) :
    ∀ decl : Decl, s.Yields (s.ofDecl specifier scope start decl)
      (decl.sites .stepwise specifier scope start)
  | .functionDecl decl => by
    rw [ofDecl, Decl.sites]
    exact s.yields_fixed rfl rfl
  | .variableDecl decl => by
    rw [ofDecl, Decl.sites]
    exact s.yields_nodes rfl (s.ofVariables_eq scope decl decl.declarators)
  | .interfaceDecl decl => by
    rw [ofDecl, Decl.sites]
    exact s.yields_nodes rfl (s.ofInterface_eq scope decl)
  | .classDecl decl => by
    rw [ofDecl, Decl.sites]
    exact s.yields_fixed rfl rfl
  | .namespaceDecl isDeclared parts items => by
    have hown : s.Yields (return entries (if s.options.namespaceNodes then
        (namespaceNodes isDeclared scope parts).1 else []))
        [⟨specifier, scope, start, some (.namespaceDecl isDeclared parts items)⟩] := by
      refine s.yields_fixed rfl ?_
      rw [stepsAt]
      split_ifs <;> rfl
    have hinner := ofItems_yields s specifier (Nesting.stepwise scope parts) items
    rw [← namespaceNodes_scope isDeclared] at hinner
    have hboth := s.yields_append hown hinner
    rw [ofDecl, Decl.sites, ← namespaceNodes_scope isDeclared]
    simpa using hboth
  | .globalBlock items => by
    rw [ofDecl, Decl.sites]
    exact ofItems_yields s specifier scope items
  | .outsideModule => rfl
  | .aliasDecl _ _ => rfl
  | .enumDecl => s.yields_diagnostic rfl rfl
  | .usingDecl => s.yields_diagnostic rfl rfl

theorem ofContent_yields (s : Setting) (specifier scope : String) (start : Position) :
    ∀ content : Content, s.Yields (s.ofContent specifier scope start content)
      (content.sites .stepwise specifier scope start)
  | .plain decl => by
    rw [ofContent, Content.sites]
    exact ofDecl_yields s specifier scope start decl
  | .exported decl => by
    rw [ofContent, Content.sites]
    exact ofDecl_yields s specifier scope start decl
  | .empty => s.yields_nothing
  | .other => s.yields_diagnostic rfl rfl

theorem ofItem_yields (s : Setting) (specifier scope : String) :
    ∀ item : Item, s.Yields (s.ofItem specifier scope item) (item.sites .stepwise specifier scope)
  | .mk start content => by
    rw [ofItem, Item.sites]
    exact ofContent_yields s specifier scope start content

theorem ofItems_yields (s : Setting) (specifier scope : String) :
    ∀ items : List Item, s.Yields (s.ofItems specifier scope items)
      (sitesOf .stepwise specifier scope items)
  | [] => s.yields_nothing
  | item :: items => by
    rw [ofItems, sitesOf]
    exact s.yields_append (ofItem_yields s specifier scope item)
      (ofItems_yields s specifier scope items)
end

theorem ofFiles_yields (s : Setting) (files : List SourceFile) :
    s.Yields (s.ofFiles files) (fileSites .stepwise files) := by
  induction files with
  | nil => exact s.yields_nothing
  | cons file files ih => exact s.yields_append (s.ofItems_yields file.specifier "" file.items) ih

end Setting

/-- A catalog is what the plan of all sites yields, with the diagnostics of the sites. -/
theorem Catalog.build_eq (corpus : Corpus) (options : Options) :
    Catalog.build corpus options =
      ((corpus.setting options).performAll ((fileSites .stepwise corpus.files).flatMap
        (corpus.setting options).stepsAt) []).map
        (fun done => ⟨Registry.empty.saveAll done.1,
          (fileSites .stepwise corpus.files).flatMap Site.diagnostics⟩) := by
  have h := congrFun ((corpus.setting options).ofFiles_yields corpus.files) []
  have hcatalog : ∀ found, ofFindings found =
      ⟨Registry.empty.saveAll (Setting.sorted found).1, (Setting.sorted found).2⟩ := fun _ => rfl
  simp only [Functor.map, StateT.map, bind, Except.bind, pure, Except.pure] at h
  simp only [build, findings, Functor.map]
  cases hs : (corpus.setting options).ofFiles corpus.files [] <;>
    cases hp : (corpus.setting options).performAll
      ((fileSites .stepwise corpus.files).flatMap (corpus.setting options).stepsAt) [] <;>
    simp_all [Except.map]

end AmbientCatalog
