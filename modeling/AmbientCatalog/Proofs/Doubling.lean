import AmbientCatalog.Proofs.Agreement
import AmbientCatalog.Proofs.Requests

/-!
# The same files twice

A corpus in which every file stands twice, the second time after all the others, has the same
catalog as the files once. The index answers as before, except that every interface has its
declarations twice. So an interface is expanded as before, with its own members repeated after each
round, and the second walk asks for nothing new.
-/

set_option autoImplicit false

namespace AmbientCatalog

structure Index.Doubles (double single : Index) : Prop extends Index.Agrees double single where
  nameOfType : double.nameOfType = single.nameOfType
  twice : ∀ name, double.interfaces name = single.interfaces name ++ single.interfaces name

theorem Index.IsOf.doubles {double single : Index} {sites : List Site}
    (hd : double.IsOf (sites ++ sites)) (hs : single.IsOf sites) : double.Doubles single where
  typeOf := by
    funext name
    simp [Index.typeOf, hd.declared, hs.declared, List.lookup_append]
  constructs := by
    funext name
    rw [Bool.eq_iff_iff, hd.constructs, hs.constructs]
    simp
  declares := by
    intro name decl
    rw [hd.mem_interfaces, hs.mem_interfaces]
    simp
  nameOfType := by
    funext name
    simp [Index.nameOfType, hd.typed, hs.typed, List.lookup_append]
  twice := by
    intro name
    simp [hd.interfaces, hs.interfaces]

theorem Index.Doubles.bindingOf {double single : Index} (h : double.Doubles single) :
    double.bindingOf = single.bindingOf := by
  funext name
  simp [Index.bindingOf, h.typeOf, h.nameOfType]

theorem eraseDups_double (names : List String) : (names ++ names).eraseDups = names.eraseDups := by
  have hnone : names.removeAll names = [] := by
    simp [List.removeAll]
  rw [List.eraseDups_append, hnone, List.eraseDups_nil, List.append_nil]

namespace Setting

variable {double single : FiledIndex} (options : Options)

theorem constructed_double (h : double.Doubles single) :
    (Setting.mk double options).constructed = (Setting.mk single options).constructed := by
  funext interface
  simp only [constructed, h.twice, h.lookup, List.flatMap_append, eraseDups_double]

theorem variableSteps_double (h : double.Doubles single) :
    (Setting.mk double options).variableSteps = (Setting.mk single options).variableSteps := by
  have hinst : (Setting.mk double options).instanceSteps =
      (Setting.mk single options).instanceSteps := by
    funext binding interface
    simp only [instanceSteps, h.hasInterface, h.constructs, constructed_double options h]
  have hagrees := h.toAgrees
  funext scope decl declarator
  unfold variableSteps describedSteps namedSteps
  simp only [ownSteps_agrees options hagrees, typeSteps_agrees options hagrees, hinst,
    isDescribed_agrees options hagrees, h.lookup]

theorem stepsAt_double (h : double.Doubles single) :
    (Setting.mk double options).stepsAt = (Setting.mk single options).stepsAt := by
  have hint : (Setting.mk double options).interfaceSteps =
      (Setting.mk single options).interfaceSteps := by
    funext scope decl
    simp only [interfaceSteps, h.bindingOf, roleOf_agrees options h.toAgrees]
  funext site
  unfold stepsAt
  rw [ofFunction_agrees options h.toAgrees, hint, variableSteps_double options h]

end Setting

inductive Mirrors {σ : Type} :
    Except MemberError (List Node × σ) → Except MemberError (List Node × σ) → Prop
  | failed (e : MemberError) : Mirrors (.error e) (.error e)
  | done {short long : List Node} (h : Repeats short long) (state : σ) :
      Mirrors (.ok (short, state)) (.ok (long, state))

theorem Mirrors.refl {σ : Type} (result : Except MemberError (List Node × σ)) :
    Mirrors result result := by
  cases result with
  | error e => exact .failed e
  | ok done => exact .done (Repeats.refl _) _

theorem Mirrors.append {σ : Type} {first first' : Except MemberError (List Node × σ)}
    {next next' : σ → Except MemberError (List Node × σ)} (h : Mirrors first first')
    (hnext : ∀ state, Mirrors (next state) (next' state)) :
    Mirrors (do
      let (nodes, state) ← first
      let (others, state) ← next state
      return (nodes ++ others, state)) (do
      let (nodes, state) ← first'
      let (others, state) ← next' state
      return (nodes ++ others, state)) := by
  cases h with
  | failed e => exact .failed e
  | done hr state =>
    simp only [ok_bind]
    have hn := hnext state
    generalize next state = second at hn ⊢
    generalize next' state = second' at hn ⊢
    cases hn with
    | failed e => exact .failed e
    | done hr' state' => exact .done (hr.append hr') state'

namespace Heritage

section Mirrored

variable {double single : Index} (scope : String) {describe : Member → Except MemberError Node}
  {expand expand' : String → List String → Except MemberError Gathered}

theorem ofBases_mirrors (h : double.Doubles single)
    (he : ∀ name visited, Mirrors (expand name visited) (expand' name visited))
    (bases : List Expr) (visited : List String) :
    Mirrors (ofBases single scope expand bases visited)
      (ofBases double scope expand' bases visited) := by
  induction bases generalizing visited with
  | nil => exact Mirrors.refl _
  | cons base bases ih =>
    have hbase : baseName? double scope base = baseName? single scope base := by
      simp only [baseName?, h.lookup]
    rw [ofBases, ofBases, hbase]
    cases baseName? single scope base with
    | none => exact ih visited
    | some parent =>
      dsimp only
      split_ifs
      · exact ih visited
      · exact Mirrors.append (he parent (parent :: visited)) ih

theorem ofDecls_mirrors (h : double.Doubles single)
    (he : ∀ name visited, Mirrors (expand name visited) (expand' name visited))
    (decls : List InterfaceDecl) (visited : List String) :
    Mirrors (ofDecls single scope describe expand decls visited)
      (ofDecls double scope describe expand' decls visited) := by
  induction decls generalizing visited with
  | nil => exact Mirrors.refl _
  | cons decl decls ih =>
    rw [ofDecls, ofDecls]
    cases decl.members.mapM describe with
    | error e => exact .failed e
    | ok own =>
      have hown := Mirrors.append (Mirrors.refl (Except.ok (own, visited)))
        (fun visited => Mirrors.append (ofBases_mirrors scope h he decl.bases visited) ih)
      simpa [bind_assoc, List.append_assoc] using hown

end Mirrored

section SecondRound

variable {index : Index} {scope : String} {describe : Member → Except MemberError Node}
  {expand : String → List String → Except MemberError Gathered}

theorem ofBases_append_visited (hg : Grows expand) {bases : List Expr}
    {visited visited' : List String} {nodes : List Node}
    (h : ofBases index scope expand bases visited = .ok (nodes, visited'))
    {base : Expr} (hbase : base ∈ bases) {parent : String}
    (hp : baseName? index scope base = some parent) : parent ∈ visited' := by
  induction bases generalizing visited nodes with
  | nil => simp at hbase
  | cons first bases ih =>
    rw [ofBases] at h
    rcases List.mem_cons.mp hbase with rfl | hbase
    · rw [hp] at h
      dsimp only at h
      split_ifs at h with hv
      · exact ofBases_grows hg h hv
      · obtain ⟨⟨inherited, middle⟩, he, h⟩ := bind_eq_ok h
        obtain ⟨⟨others, last⟩, ho, h⟩ := bind_eq_ok h
        cases h
        exact ofBases_grows hg ho (hg _ _ _ _ he List.mem_cons_self)
    · split at h
      · exact ih h hbase
      · split_ifs at h with hv
        · exact ih h hbase
        · obtain ⟨⟨inherited, middle⟩, he, h⟩ := bind_eq_ok h
          obtain ⟨⟨others, last⟩, ho, h⟩ := bind_eq_ok h
          cases h
          exact ih ho hbase

theorem ofBases_visited {bases : List Expr} {visited : List String}
    (h : ∀ base ∈ bases, ∀ parent, baseName? index scope base = some parent → parent ∈ visited) :
    ofBases index scope expand bases visited = .ok ([], visited) := by
  induction bases with
  | nil => rfl
  | cons base bases ih =>
    have hrest := ih (fun b hb => h b (List.mem_cons_of_mem _ hb))
    rw [ofBases]
    cases hb : baseName? index scope base with
    | none => exact hrest
    | some parent => simpa [h base List.mem_cons_self parent hb] using hrest

/-- After a round through some declarations, another one finds every base visited and repeats only
their own members. -/
theorem ofDecls_again (hg : Grows expand) {decls : List InterfaceDecl}
    {visited visited' : List String} {nodes : List Node}
    (h : ofDecls index scope describe expand decls visited = .ok (nodes, visited'))
    {later : List String} (hlater : visited' ⊆ later) :
    ∃ again, ofDecls index scope describe expand decls later = .ok (again, later) ∧
      ∀ node ∈ again, node ∈ nodes := by
  induction decls generalizing visited nodes with
  | nil => exact ⟨[], rfl, by simp⟩
  | cons decl decls ih =>
    obtain ⟨own, hown, h⟩ := bind_eq_ok h
    obtain ⟨⟨inherited, middle⟩, hb, h⟩ := bind_eq_ok h
    obtain ⟨⟨others, last⟩, hd, h⟩ := bind_eq_ok h
    cases h
    obtain ⟨again, hagain, hmem⟩ := ih hd
    have hvisited : ofBases index scope expand decl.bases later = .ok ([], later) := by
      apply ofBases_visited
      intro base hbase parent hp
      exact hlater (ofDecls_grows hg hd (ofBases_append_visited hg hb hbase hp))
    refine ⟨own ++ again, ?_, ?_⟩
    · rw [ofDecls, hown, hvisited]
      simp [hagain, bind, Except.bind, pure, Except.pure]
    · intro node hnode
      rcases List.mem_append.mp hnode with hnode | hnode
      · simp [hnode]
      · simp [hmem node hnode]

theorem ofDecls_append (decls decls' : List InterfaceDecl) (visited : List String) :
    ofDecls index scope describe expand (decls ++ decls') visited = (do
      let (nodes, visited) ← ofDecls index scope describe expand decls visited
      let (others, visited) ← ofDecls index scope describe expand decls' visited
      return (nodes ++ others, visited)) := by
  induction decls generalizing visited with
  | nil => simp [ofDecls]
  | cons decl decls ih => simp [ofDecls, ih]

theorem ofDecls_double (hg : Grows expand) {decls : List InterfaceDecl} {visited : List String}
    {result : Except MemberError Gathered}
    (h : Mirrors result (ofDecls index scope describe expand decls visited)) :
    Mirrors result (ofDecls index scope describe expand (decls ++ decls) visited) := by
  rw [ofDecls_append]
  cases hd : ofDecls index scope describe expand decls visited with
  | error e =>
    rw [hd] at h
    exact h
  | ok gathered =>
    rw [hd] at h
    obtain ⟨nodes, visited'⟩ := gathered
    obtain ⟨again, hagain, hmem⟩ := ofDecls_again hg hd (List.Subset.refl visited')
    cases h with
    | done hr =>
      simp only [ok_bind, hagain]
      exact .done (hr.append_old (fun node hn => (hr.mem_iff node).mp (hmem node hn))) visited'

end SecondRound

theorem moved_mirrors (role : Role)
    {expand expand' : String → String → List String → Except MemberError Gathered}
    (h : ∀ name scope visited, Mirrors (expand name scope visited) (expand' name scope visited))
    (target parent : String) (visited : List String) :
    Mirrors (moved role expand target parent visited)
      (moved role expand' target parent visited) := by
  have hm := h parent (role.scope parent) visited
  dsimp only [moved]
  generalize expand parent (role.scope parent) visited = single at hm ⊢
  generalize expand' parent (role.scope parent) visited = double at hm ⊢
  cases hm with
  | failed e => exact .failed e
  | done hr state => exact .done (hr.map _) state

theorem members_mirrors {double single : FiledIndex} (h : double.Doubles single) (role : Role)
    (depth : Nat) (name scope : String) (visited : List String) :
    Mirrors (members single role depth name scope visited)
      (members double role depth name scope visited) := by
  induction depth generalizing name scope visited with
  | zero => exact Mirrors.refl _
  | succ depth ih =>
    rw [members_eq, members_eq, h.twice]
    exact ofDecls_double (moved_grows (members_grows double role depth) scope)
      (ofDecls_mirrors (Name.parent name) h (moved_mirrors role ih scope) _ visited)

end Heritage

namespace Setting

variable {double single : FiledIndex} (options : Options)

theorem interfaceNodes_mirrors (h : double.Doubles single) (interface : String) (role : Role)
    (binding : String) :
    Mirrors (((Setting.mk single options).interfaceNodes interface role binding).map (·, ()))
      (((Setting.mk double options).interfaceNodes interface role binding).map (·, ())) := by
  have htakes : (Setting.mk double options).takesObject interface =
      (Setting.mk single options).takesObject interface := by
    simp only [takesObject, h.hasInterface]
  rw [interfaceNodes_depth (Setting.mk single options) interface role binding
      (Nat.le_add_right _ (Heritage.depthFor double)),
    interfaceNodes_depth (Setting.mk double options) interface role binding
      (Nat.le_add_left _ (Heritage.depthFor single)), htakes]
  dsimp only
  have hm := Heritage.members_mirrors h role (Heritage.depthFor single + Heritage.depthFor double)
    interface (role.scope binding) [interface]
  have hi := Heritage.moved_mirrors role (Heritage.members_mirrors h role
    (Heritage.depthFor single + Heritage.depthFor double)) (role.scope binding) objectName
  generalize Heritage.members single role _ interface _ _ = first at hm ⊢
  generalize Heritage.members double role _ interface _ _ = first' at hm ⊢
  cases hm with
  | failed e => exact .failed e
  | done hr visited =>
    simp only [ok_bind]
    split_ifs
    · have hn := hi (objectName :: visited)
      unfold Heritage.inherited
      generalize Heritage.moved role (Heritage.members single role _) _ _ _ = second at hn ⊢
      generalize Heritage.moved role (Heritage.members double role _) _ _ _ = second' at hn ⊢
      cases hn with
      | failed e => exact .failed e
      | done hr' visited' => exact .done (hr.append hr') ()
    · exact .done hr ()

theorem perform_mirrors (h : double.Doubles single) (step : Step) (done : List (String × String)) :
    Mirrors ((Setting.mk single options).perform step done)
      ((Setting.mk double options).perform step done) := by
  cases step with
  | node node => exact Mirrors.refl _
  | inline binding members => exact Mirrors.refl _
  | request interface role binding =>
    simp only [perform, describeInterface_apply]
    split_ifs
    · exact Mirrors.refl _
    · have hm := interfaceNodes_mirrors options h interface role binding
      generalize (Setting.mk single options).interfaceNodes interface role binding = a at hm ⊢
      generalize (Setting.mk double options).interfaceNodes interface role binding = b at hm ⊢
      cases a <;> cases b <;> cases hm
      · exact .failed _
      · next hr => exact .done hr _

theorem performAll_mirrors (h : double.Doubles single) (steps : List Step)
    (done : List (String × String)) :
    Mirrors ((Setting.mk single options).performAll steps done)
      ((Setting.mk double options).performAll steps done) := by
  induction steps generalizing done with
  | nil => exact Mirrors.refl _
  | cons step steps ih => exact Mirrors.append (perform_mirrors options h step done) ih

theorem perform_grows (s : Setting) {step : Step} {done done' : List (String × String)}
    {nodes : List Node} (h : s.perform step done = .ok (nodes, done')) : done ⊆ done' := by
  rcases s.perform_state h with rfl | ⟨interface, role, binding, -, rfl⟩
  · exact List.Subset.refl _
  · exact List.subset_cons_self _ _

theorem performAll_grows (s : Setting) {steps : List Step} {done done' : List (String × String)}
    {nodes : List Node} (h : s.performAll steps done = .ok (nodes, done')) : done ⊆ done' := by
  induction steps generalizing done nodes with
  | nil =>
    cases h
    exact List.Subset.refl _
  | cons step steps ih =>
    obtain ⟨first, middle, others, hf, ho, rfl⟩ := s.performAll_cons_ok h
    exact List.Subset.trans (s.perform_grows hf) (ih ho)

theorem perform_again (s : Setting) {step : Step} {done done' : List (String × String)}
    {nodes : List Node} (h : s.perform step done = .ok (nodes, done'))
    {later : List (String × String)} (hlater : done' ⊆ later) :
    ∃ again, s.perform step later = .ok (again, later) ∧ ∀ node ∈ again, node ∈ nodes := by
  cases step with
  | node node =>
    cases h
    exact ⟨[node], rfl, fun _ hn => hn⟩
  | inline binding members =>
    obtain ⟨found, hm, h⟩ := bind_eq_ok h
    cases h
    have hm : members.mapM (Member.resolve binding true) = .ok nodes := hm
    refine ⟨nodes, ?_, fun _ hn => hn⟩
    show (members.mapM (Member.resolve binding true) >>= _) = _
    rw [hm]
    rfl
  | request interface role binding =>
    refine ⟨[], ?_, by simp⟩
    rw [perform, describeInterface_apply] at h ⊢
    have hasked : (interface, binding) ∈ later := by
      apply hlater
      split_ifs at h with hin
      · cases h
        exact hin
      · cases hn : s.interfaceNodes interface role binding with
        | error e => simp [hn, Except.map] at h
        | ok found =>
          simp only [hn, Except.map, Except.ok.injEq, Prod.mk.injEq] at h
          simp [← h.2]
    rw [if_pos hasked]

/-- Once a plan has been carried out, carrying it out again asks for nothing new. -/
theorem performAll_again (s : Setting) {steps : List Step} {done done' : List (String × String)}
    {nodes : List Node} (h : s.performAll steps done = .ok (nodes, done'))
    {later : List (String × String)} (hlater : done' ⊆ later) :
    ∃ again, s.performAll steps later = .ok (again, later) ∧ ∀ node ∈ again, node ∈ nodes := by
  induction steps generalizing done nodes with
  | nil => exact ⟨[], rfl, by simp⟩
  | cons step steps ih =>
    obtain ⟨first, middle, others, hf, ho, rfl⟩ := s.performAll_cons_ok h
    -- the second run starts with all that the first one noted, so it notes nothing on its way
    obtain ⟨again, ha, hmem⟩ := s.perform_again hf
      (List.Subset.trans (s.performAll_grows ho) hlater)
    obtain ⟨again', ha', hmem'⟩ := ih ho
    refine ⟨again ++ again', ?_, ?_⟩
    · exact s.performAll_cons_of_ok ha ha'
    · intro node hn
      rcases List.mem_append.mp hn with hn | hn
      · exact List.mem_append_left _ (hmem node hn)
      · exact List.mem_append_right _ (hmem' node hn)

theorem performAll_double (h : double.Doubles single) (steps : List Step)
    (done : List (String × String)) :
    Mirrors ((Setting.mk single options).performAll steps done)
      ((Setting.mk double options).performAll (steps ++ steps) done) := by
  have hm := performAll_mirrors options h steps done
  rw [performAll_append]
  show Mirrors _ ((Setting.mk double options).performAll steps done >>= _)
  cases hd : (Setting.mk double options).performAll steps done with
  | error e =>
    rw [hd] at hm
    exact hm
  | ok first =>
    rw [hd] at hm
    obtain ⟨nodes, done'⟩ := first
    obtain ⟨again, ha, hmem⟩ := performAll_again _ hd (List.Subset.refl done')
    generalize (Setting.mk single options).performAll steps done = result at hm ⊢
    cases hm with
    | done hr =>
      show Mirrors _ ((Setting.mk double options).performAll steps done' >>= _)
      rw [ha]
      exact .done (hr.append_old (fun node hn => (hr.mem_iff node).mp (hmem node hn))) done'

end Setting

theorem Corpus.index_doubles (files : List SourceFile) :
    (Corpus.ofFiles (files ++ files)).filedIndex.Doubles (Corpus.ofFiles files).filedIndex := by
  have hdouble := (Corpus.ofFiles (files ++ files)).index_isOf
  have hsingle := (Corpus.ofFiles files).index_isOf
  rw [Corpus.fileSites_ofFiles, fileSites_append] at hdouble
  rw [Corpus.fileSites_ofFiles] at hsingle
  exact hdouble.doubles hsingle

/-- Files that stand twice in a corpus leave the catalog as it is, down to the order of its entries,
and have their diagnostics twice. -/
theorem Catalog.build_double (files : List SourceFile) (options : Options) :
    ∃ catalog, build (Corpus.ofFiles files) options = .ok catalog ∧
      build (Corpus.ofFiles (files ++ files)) options =
        .ok ⟨catalog.registry, catalog.diagnostics ++ catalog.diagnostics⟩ := by
  obtain ⟨catalog, hbuild, -⟩ := build_isOf (Corpus.ofFiles files) options
  refine ⟨catalog, hbuild, ?_⟩
  have hd := Corpus.index_doubles files
  have hm := Setting.performAll_double options hd ((fileSites .stepwise files).flatMap
    ((Corpus.ofFiles files).setting options).stepsAt) []
  rw [build_eq, Corpus.fileSites_ofFiles] at hbuild
  rw [build_eq, Corpus.fileSites_ofFiles, fileSites_append, Setting.stepsAt_double options hd,
    List.flatMap_append, List.flatMap_append]
  generalize Setting.performAll _ _ [] = once at hm hbuild
  generalize Setting.performAll _ _ [] = twice at hm ⊢
  cases hm with
  | failed e => exact absurd hbuild (by simp [Except.map])
  | done hr done =>
    obtain rfl := Except.ok.inj hbuild
    simp only [Except.map]
    rw [Registry.empty.saveAll_repeats hr]

end AmbientCatalog
