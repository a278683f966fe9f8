import AmbientCatalog.Proofs.Requests

/-!
# Building never fails

A member that is named by its scope alone cannot be described under the empty scope, and nothing
else can go wrong. A build never comes near this: whatever it describes, it describes under a scope
with a name. To say so, the description of members is made a parameter of the build. What the
parameter does under the empty scope does not matter, so the empty scope is never asked for.
-/

set_option autoImplicit false

namespace AmbientCatalog

abbrev Resolver := String → Bool → Member → Except MemberError Node

def Resolver.Usual (resolve : Resolver) : Prop :=
  ∀ scope, scope ≠ "" → ∀ isStatic, resolve scope isStatic = Member.resolve scope isStatic

namespace Heritage

def membersBy (resolve : Resolver) (index : FiledIndex) (role : Role) :
    Nat → String → String → List String → Except MemberError Gathered
  | 0, _, _, _ => .error .tooDeep
  | depth + 1, name, scope, visited =>
    ofDecls index (Name.parent name) (resolve scope role.isStatic)
      (moved role (membersBy resolve index role depth) scope) (index.declared name) visited

/-- Each parent is described under its own scope, which has a name because the parent has one. -/
theorem membersBy_eq {resolve : Resolver} (hu : resolve.Usual) {index : FiledIndex}
    (hnamed : index.hasInterface "" = false) (role : Role) (depth : Nat) (name : String)
    {scope : String} (hs : scope ≠ "") (visited : List String) :
    membersBy resolve index role depth name scope visited =
      members index role depth name scope visited := by
  induction depth generalizing name scope visited with
  | zero => rfl
  | succ depth ih =>
    rw [membersBy, members, hu scope hs]
    refine (ofDecls_congr (moved_grows (members_grows index role depth) scope) ?_).symm
    intro parent v _ _ hi
    have hparent : parent ≠ "" := by
      rintro rfl
      simp [hnamed] at hi
    rw [moved, moved, ih parent (role.scope_ne_empty hparent)]

end Heritage

namespace Setting

def interfaceNodesBy (resolve : Resolver) (s : Setting) (interface : String) (role : Role)
    (binding : String) : Except MemberError (List Node) := do
  let depth := Heritage.depthFor s.index
  let scope := role.scope binding
  let (own, visited) ← Heritage.membersBy resolve s.index role depth interface scope [interface]
  if s.takesObject interface && objectName ∉ visited then
    let (object, _) ← Heritage.moved role (Heritage.membersBy resolve s.index role depth) scope
      objectName (objectName :: visited)
    return own ++ object
  else return own

def performBy (resolve : Resolver) (s : Setting) : Step → Survey (List Node)
  | .node node => return [node]
  | .inline binding members => liftM (members.mapM (resolve binding true))
  | .request interface role binding => fun done =>
    if done.contains (interface, binding) then .ok ([], done)
    else (s.interfaceNodesBy resolve interface role binding).map
      (fun nodes => (nodes, (interface, binding) :: done))

def performAllBy (resolve : Resolver) (s : Setting) : List Step → Survey (List Node)
  | [] => return []
  | step :: steps => do
    let nodes ← s.performBy resolve step
    let others ← s.performAllBy resolve steps
    return nodes ++ others

variable {resolve : Resolver} {s : Setting}

theorem interfaceNodesBy_eq (hu : resolve.Usual) (hnamed : s.index.hasInterface "" = false)
    (interface : String) (role : Role) {binding : String} (hb : binding ≠ "") :
    s.interfaceNodesBy resolve interface role binding =
      s.interfaceNodes interface role binding := by
  have hobject : role.scope objectName ≠ "" := role.scope_ne_empty (by decide)
  simp only [interfaceNodesBy, interfaceNodes, Heritage.inherited, Heritage.moved,
    Heritage.membersBy_eq hu hnamed role _ _ (role.scope_ne_empty hb),
    Heritage.membersBy_eq hu hnamed role _ _ hobject]

theorem performBy_eq (hu : resolve.Usual) (hnamed : s.index.hasInterface "" = false) {step : Step}
    (hstep : step.Named) : s.performBy resolve step = s.perform step := by
  cases step with
  | node emitted => rfl
  | inline binding members => rw [performBy, perform, hu binding hstep]
  | request interface role binding =>
    funext done
    rw [perform, describeInterface_apply, performBy,
      interfaceNodesBy_eq hu hnamed interface role hstep]
    simp only [List.contains_iff_mem]

theorem performAllBy_eq (hu : resolve.Usual) (hnamed : s.index.hasInterface "" = false)
    {steps : List Step} (hsteps : ∀ step ∈ steps, step.Named) :
    s.performAllBy resolve steps = s.performAll steps := by
  induction steps with
  | nil => rfl
  | cons step steps ih =>
    rw [performAllBy, performAll, performBy_eq hu hnamed (hsteps step List.mem_cons_self),
      ih (fun later hlater => hsteps later (List.mem_cons_of_mem _ hlater))]

end Setting

def Catalog.buildBy (resolve : Resolver) (corpus : Corpus) (options : Options) :
    Except MemberError Catalog :=
  ((corpus.setting options).performAllBy resolve
    ((fileSites .stepwise corpus.files).flatMap (corpus.setting options).stepsAt) []).map
    (fun done => ⟨Registry.empty.saveAll done.1,
      (fileSites .stepwise corpus.files).flatMap Site.diagnostics⟩)

theorem Catalog.buildBy_eq {resolve : Resolver} (hu : resolve.Usual) (corpus : Corpus)
    (options : Options) : buildBy resolve corpus options = build corpus options := by
  have hindex : (corpus.setting options).index.IsOf (fileSites .stepwise corpus.files) :=
    corpus.index_isOf
  have hsteps := Setting.stepsAt_named hindex (wellNamed_fileSites corpus.files)
  rw [build_eq, buildBy, Setting.performAllBy_eq hu corpus.hasInterface_empty hsteps]

theorem Member.needsScope_eq_some {member : Member} {e : MemberError} :
    member.needsScope = some e ↔
      (e = .namelessCall ∧ ∃ signature, member = .call signature) ∨
        (e = .namelessConstruct ∧ ∃ signature, member = .construct signature) := by
  cases member <;> simp [needsScope, eq_comm]

theorem Member.resolve_eq_error {scope : String} {isStatic : Bool} {member : Member}
    {e : MemberError} :
    member.resolve scope isStatic = .error e ↔ scope = "" ∧ member.needsScope = some e := by
  by_cases hs : scope = ""
  · cases hm : member.needsScope <;> simp [resolve, hs, hm]
  · simp [resolve_ok hs, hs]

/-- Every corpus has a catalog, and no member is ever described under the empty scope: a resolver
that does anything else there builds the same catalog. -/
theorem Catalog.build_total (corpus : Corpus) (options : Options) :
    (∃ catalog, build corpus options = .ok catalog) ∧
      buildBy Member.resolve corpus options = build corpus options ∧
      (∀ resolve : Resolver, resolve.Usual →
        buildBy resolve corpus options = build corpus options) ∧
      ∀ (scope : String) (isStatic : Bool) (member : Member) (e : MemberError),
        member.resolve scope isStatic = .error e ↔ scope = "" ∧
          ((e = .namelessCall ∧ ∃ signature, member = .call signature) ∨
            (e = .namelessConstruct ∧ ∃ signature, member = .construct signature)) := by
  obtain ⟨nodes, -, -, hbuild, -⟩ := build_run corpus options
  refine ⟨⟨_, hbuild⟩, buildBy_eq (fun _ _ _ => rfl) corpus options,
    fun resolve hu => buildBy_eq hu corpus options, fun scope isStatic member e => ?_⟩
  rw [Member.resolve_eq_error, Member.needsScope_eq_some]

def Resolver.strict : Resolver := fun scope isStatic member =>
  if scope = "" then .error (member.needsScope.getD .namelessCall)
  else member.resolve scope isStatic

theorem Catalog.build_total_strict :
    ∃ catalog, build (Corpus.ofFiles [mapTypes, mapGlobals]) {} = .ok catalog ∧
      buildBy .strict (Corpus.ofFiles [mapTypes, mapGlobals]) {} = .ok catalog := by
  obtain ⟨⟨catalog, hbuild⟩, -, hany, -⟩ :=
    build_total (Corpus.ofFiles [mapTypes, mapGlobals]) {}
  have hstrict : Resolver.strict.Usual := by
    intro scope hs isStatic
    funext member
    rw [Resolver.strict, if_neg hs]
  exact ⟨catalog, hbuild, (hany .strict hstrict).trans hbuild⟩

end AmbientCatalog
