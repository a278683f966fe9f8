import AmbientCatalog.Proofs.Closure

/-!
# Renaming inherited members

A parent is described under its own name, and the result is moved to the child; its own parents were
moved to it before, so a member is moved once for every level between its interface and the one it
ends up under. All this moving amounts to none: the nodes are those that every member gives when it
is described under the child's scope at once. The reason is that a description can be moved from any
scope with a name to any other, and that the search through the bases never looks at the scope.
-/

set_option autoImplicit false

namespace AmbientCatalog

def Corpus.ExtendsOutside (corpus : Corpus) (visited : List String) (child parent : String) :
    Prop :=
  corpus.Extends child parent ∧ parent ∉ visited

namespace Heritage

def relocated (source target : String) (gathered : Gathered) : Gathered :=
  (gathered.1.map (Node.rebase source target), gathered.2)

def direct (index : Index) (role : Role) :
    Nat → String → String → List String → Except MemberError Gathered
  | 0, _, _, _ => .error .tooDeep
  | depth + 1, name, scope, visited =>
    ofDecls index (Name.parent name) (Member.resolve scope role.isStatic)
      (fun parent => direct index role depth parent scope) (index.interfaces name) visited

theorem moved_eq (role : Role)
    (expand : String → String → List String → Except MemberError Gathered)
    (target parent : String) (visited : List String) :
    moved role expand target parent visited =
      (expand parent (role.scope parent) visited).map (relocated (role.scope parent) target) := by
  rw [moved]
  cases expand parent (role.scope parent) visited <;> rfl

section Relocation

variable {index : Index} {source target : String}
  {expand expand' : String → List String → Except MemberError Gathered}

theorem ofBases_relocated (inner : String) (bases : List Expr) (visited : List String)
    (h : ∀ parent v, expand' parent v = (expand parent v).map (relocated source target)) :
    ofBases index inner expand' bases visited =
      (ofBases index inner expand bases visited).map (relocated source target) := by
  induction bases generalizing visited with
  | nil => rfl
  | cons base bases ih =>
    rw [ofBases, ofBases]
    split
    · exact ih visited
    · next parent _ =>
      split_ifs
      · exact ih visited
      · rw [h]
        cases expand parent (parent :: visited) with
        | error e => rfl
        | ok gathered =>
          obtain ⟨inherited, middle⟩ := gathered
          show (ofBases index inner expand' bases middle >>= _) =
            (ofBases index inner expand bases middle >>= _).map _
          rw [ih middle]
          cases ofBases index inner expand bases middle with
          | error e => rfl
          | ok others =>
            simp [relocated, Except.map, bind, Except.bind, pure, Except.pure]

theorem ofDecls_relocated (hs : source ≠ "") (ht : target ≠ "") (inner : String) (isStatic : Bool)
    (decls : List InterfaceDecl) (visited : List String)
    (h : ∀ parent v, expand' parent v = (expand parent v).map (relocated source target)) :
    ofDecls index inner (Member.resolve target isStatic) expand' decls visited =
      (ofDecls index inner (Member.resolve source isStatic) expand decls visited).map
        (relocated source target) := by
  induction decls generalizing visited with
  | nil => rfl
  | cons decl decls ih =>
    have hown : (decl.members.map (Member.node source isStatic)).map (Node.rebase source target) =
        decl.members.map (Member.node target isStatic) := by
      rw [List.map_map]
      apply List.map_congr_left
      intro member _
      exact Member.rebase_node hs ht isStatic member
    rw [ofDecls, ofDecls, Member.mapM_resolve_ok hs, Member.mapM_resolve_ok ht,
      ofBases_relocated inner decl.bases visited h]
    cases ofBases index inner expand decl.bases visited with
    | error e => rfl
    | ok gathered =>
      obtain ⟨inherited, middle⟩ := gathered
      show (ofDecls index inner (Member.resolve target isStatic) expand' decls middle >>= _) =
        (ofDecls index inner (Member.resolve source isStatic) expand decls middle >>= _).map _
      rw [ih middle]
      cases ofDecls index inner (Member.resolve source isStatic) expand decls middle with
      | error e => rfl
      | ok others =>
        simp [relocated, hown, Except.map, bind, Except.bind, pure, Except.pure]

end Relocation

/-- A direct description can be moved from any scope with a name to any other. -/
theorem direct_relocated (index : Index) (role : Role) (depth : Nat) (name : String)
    {source target : String} (hs : source ≠ "") (ht : target ≠ "") (visited : List String) :
    direct index role depth name target visited =
      (direct index role depth name source visited).map (relocated source target) := by
  induction depth generalizing name visited with
  | zero => rfl
  | succ depth ih =>
    rw [direct, direct]
    -- bases are looked up from the interface's own scope, which stays where it is
    exact ofDecls_relocated hs ht (Name.parent name) role.isStatic (index.interfaces name) visited
      (fun parent v => ih parent v)

/-- Moving the parents at every level gives what describing them at once gives. -/
theorem members_eq_direct {index : FiledIndex} (hnamed : index.hasInterface "" = false)
    (role : Role) (depth : Nat) (name : String) {scope : String} (hs : scope ≠ "")
    (visited : List String) :
    members index role depth name scope visited = direct index role depth name scope visited := by
  induction depth generalizing name scope visited with
  | zero => rfl
  | succ depth ih =>
    rw [members_eq, direct]
    apply ofDecls_congr (moved_grows (members_grows index role depth) scope)
    intro parent v _ _ hi
    have hparent : parent ≠ "" := by
      rintro rfl
      simp [hnamed] at hi
    have hown := role.scope_ne_empty hparent
    -- what is moved was gathered under the parent's own scope, where it is direct by induction
    rw [moved_eq, ih parent hown, ← direct_relocated index role depth parent hown hs]

theorem members_nameless {index : FiledIndex} (hnamed : index.hasInterface "" = false) (role : Role)
    (depth : Nat) (scope : String) (visited : List String) :
    members index role (depth + 1) "" scope visited = .ok ([], visited) := by
  have hnone : index.interfaces "" = [] := by simpa [Index.hasInterface] using hnamed
  rw [members_eq, hnone, ofDecls]

/-- What a child inherits from a parent is what the parent gives under the child's scope. -/
theorem inherited_eq_members {index : FiledIndex} (hnamed : index.hasInterface "" = false)
    (role : Role) (depth : Nat) {scope : String} (hs : scope ≠ "") (parent : String)
    (visited : List String) :
    inherited index role depth scope parent visited =
      members index role depth parent scope visited := by
  rw [inherited, moved_eq]
  by_cases hparent : parent = ""
  · subst hparent
    cases depth with
    | zero => rfl
    | succ depth =>
      rw [members_nameless hnamed, members_nameless hnamed]
      rfl
  · have hown := role.scope_ne_empty hparent
    rw [members_eq_direct hnamed role depth parent hown,
      members_eq_direct hnamed role depth parent hs,
      direct_relocated index role depth parent hown hs]

/-- The search from an interface succeeds. It visits for the first time what can be reached without
a visited interface on the way, and gathers the members of all these interfaces and its own. -/
theorem members_gathered (corpus : Corpus) (role : Role) (name : String) {scope : String}
    (hs : scope ≠ "") (visited : List String) :
    ∃ nodes fresh, members corpus.filedIndex role (depthFor corpus.index) name scope visited =
        .ok (nodes, fresh ++ visited) ∧
      fresh.Nodup ∧
      (∀ n, n ∈ fresh ↔ Relation.TransGen (corpus.ExtendsOutside visited) name n) ∧
      nodes.Perm (((name :: fresh).flatMap corpus.elements).map
        (Member.node scope role.isStatic)) := by
  have hnamed : corpus.filedIndex.hasInterface "" = false := corpus.hasInterface_empty
  obtain ⟨nodes, fresh, hmembers, hperm, hadds⟩ :=
    members_gathers hnamed role name hs (unvisited_lt_depthFor corpus.index visited)
  have houtside : corpus.index.ExtendsOutside visited = corpus.ExtendsOutside visited := by
    funext child parent
    rw [Index.ExtendsOutside, corpus.extends_eq, Corpus.ExtendsOutside]
  refine ⟨nodes, fresh, hmembers, hadds.nodup, fun n => ?_, ?_⟩
  · rw [hadds.mem_iff_outside, Relation.TransGen.head'_iff, corpus.filedIndex_toIndex, houtside]
    simp only [Index.mem_parents, corpus.extends_eq, Corpus.ExtendsOutside, and_assoc]
  · have hnodes : nodesOf corpus.index scope role.isStatic =
        fun n => (corpus.elements n).map (Member.node scope role.isStatic) := by
      funext n
      rw [nodesOf, corpus.elements_eq]
    rw [corpus.filedIndex_toIndex, hnodes] at hperm
    simpa [List.map_flatMap] using hperm

/-- What a child inherits from a parent, moved at every level from the scope of an ancestor to that
of its heir, is what the members of the parent and of all it reaches give under the child's scope at
once. -/
theorem inherited_direct (corpus : Corpus) (role : Role) (parent : String) (scope : String)
    (hs : scope ≠ "") (visited : List String) :
    (∀ depth, inherited corpus.filedIndex role depth scope parent visited =
        members corpus.filedIndex role depth parent scope visited ∧
      members corpus.filedIndex role depth parent scope visited =
        direct corpus.index role depth parent scope visited) ∧
    (∀ depth ≥ depthFor corpus.index, inherited corpus.filedIndex role depth scope parent visited =
      inherited corpus.filedIndex role (depthFor corpus.index) scope parent visited) ∧
    ∃ nodes fresh,
      inherited corpus.filedIndex role (depthFor corpus.index) scope parent visited =
        .ok (nodes, fresh ++ visited) ∧
      fresh.Nodup ∧
      (∀ n, n ∈ fresh ↔ Relation.TransGen (corpus.ExtendsOutside visited) parent n) ∧
      (nodes.map Except.ok).Perm (((parent :: fresh).flatMap corpus.elements).map
        (Member.resolve scope role.isStatic)) ∧
      ∀ node ∈ nodes, ∃ name, corpus.Reaches parent name ∧
        ∃ member ∈ corpus.elements name, member.resolve scope role.isStatic = .ok node := by
  have hnamed : corpus.filedIndex.hasInterface "" = false := corpus.hasInterface_empty
  have hcopy := fun depth => inherited_eq_members hnamed role depth hs parent visited
  refine ⟨fun depth => ⟨hcopy depth, members_eq_direct hnamed role depth parent hs visited⟩,
    fun depth hdepth => ?_, ?_⟩
  · rw [hcopy, hcopy, members_depth corpus.filedIndex role hdepth]
    rfl
  obtain ⟨nodes, fresh, hmembers, hnodup, hfresh, hperm⟩ :=
    members_gathered corpus role parent hs visited
  refine ⟨nodes, fresh, (hcopy _).trans hmembers, hnodup, hfresh, ?_, fun node hnode => ?_⟩
  · have hresolve : Member.resolve scope role.isStatic =
        fun member => .ok (member.node scope role.isStatic) :=
      funext (Member.resolve_ok hs role.isStatic)
    simpa [hresolve, Function.comp_def] using
      hperm.map (fun node => (Except.ok node : Except MemberError Node))
  · obtain ⟨member, hmember, rfl⟩ := List.mem_map.mp (hperm.mem_iff.mp hnode)
    obtain ⟨name, hname, hin⟩ := List.mem_flatMap.mp hmember
    refine ⟨name, ?_, member, hin, Member.resolve_ok hs role.isStatic member⟩
    rcases List.mem_cons.mp hname with rfl | hname
    · exact .refl
    · exact Relation.ReflTransGen.mono (fun _ _ hstep => hstep.1) _ _
        ((hfresh name).mp hname).to_reflTransGen

theorem inherited_direct_sized :
    (∀ depth, inherited mapCorpus.filedIndex .instanceSide depth "Counter.prototype" "Sized"
        ["Sized"] =
        members mapCorpus.filedIndex .instanceSide depth "Sized" "Counter.prototype" ["Sized"] ∧
      members mapCorpus.filedIndex .instanceSide depth "Sized" "Counter.prototype" ["Sized"] =
        direct mapCorpus.index .instanceSide depth "Sized" "Counter.prototype" ["Sized"]) ∧
    ∃ nodes fresh, inherited mapCorpus.filedIndex .instanceSide (depthFor mapCorpus.index)
        "Counter.prototype" "Sized" ["Sized"] = .ok (nodes, fresh ++ ["Sized"]) :=
  have h := inherited_direct mapCorpus .instanceSide "Sized" "Counter.prototype" (by decide)
    ["Sized"]
  have ⟨nodes, fresh, hok, _⟩ := h.2.2
  ⟨h.1, nodes, fresh, hok⟩

end Heritage

end AmbientCatalog
