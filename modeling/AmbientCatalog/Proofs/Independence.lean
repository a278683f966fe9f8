import AmbientCatalog.Proofs.Entries
import AmbientCatalog.Proofs.Isolation

/-!
# Unrelated files

Files that have nothing to do with each other do not influence each other. Each part of a corpus has
the plan that it has alone. The second part finds nothing described that it asks for, because all it
asks for is for variables of its own, and its nodes have names with roots of its own. So the catalog
of the whole is that of the first part followed by that of the second.
-/

set_option autoImplicit false

namespace AmbientCatalog

namespace Setting

section Frame

variable (s : Setting) {rest : List (String × String)}

theorem perform_frame {step : Step}
    (h : ∀ interface role binding, step = .request interface role binding →
      (interface, binding) ∉ rest) (done : List (String × String)) :
    s.perform step (done ++ rest) =
      (s.perform step done).map (fun result => (result.1, result.2 ++ rest)) := by
  cases step with
  | node emitted => rfl
  | inline binding members =>
    show (members.mapM (Member.resolve binding true) >>= _) = Except.map _ (_ >>= _)
    cases members.mapM (Member.resolve binding true) <;> rfl
  | request interface role binding =>
    have hnew := h interface role binding rfl
    rw [perform, describeInterface_apply, describeInterface_apply]
    by_cases hdone : (interface, binding) ∈ done
    · rw [if_pos hdone, if_pos (List.mem_append_left _ hdone)]
      rfl
    · have hall : (interface, binding) ∉ done ++ rest := by simp [hdone, hnew]
      rw [if_neg hdone, if_neg hall]
      cases s.interfaceNodes interface role binding <;> rfl

/-- Pairs that a plan never asks for make no difference to it. -/
theorem performAll_frame {steps : List Step}
    (h : ∀ interface role binding, .request interface role binding ∈ steps →
      (interface, binding) ∉ rest) (done : List (String × String)) :
    s.performAll steps (done ++ rest) =
      (s.performAll steps done).map (fun result => (result.1, result.2 ++ rest)) := by
  induction steps generalizing done with
  | nil => rfl
  | cons step steps ih =>
    have hstep : s.perform step (done ++ rest) =
        (s.perform step done).map (fun result => (result.1, result.2 ++ rest)) :=
      s.perform_frame (fun interface role binding heq =>
        h interface role binding (heq ▸ List.mem_cons_self)) done
    rw [performAll_cons, performAll_cons, hstep]
    cases s.perform step done with
    | error e => rfl
    | ok first =>
      have hrest := ih (fun interface role binding hmem =>
        h interface role binding (List.mem_cons_of_mem _ hmem)) first.2
      show (s.performAll steps (first.2 ++ rest) >>= _) =
        Except.map _ (s.performAll steps first.2 >>= _)
      rw [hrest]
      cases s.performAll steps first.2 <;> rfl

theorem performAll_done {steps : List Step} {done done' : List (String × String)}
    {nodes : List Node} (h : s.performAll steps done = .ok (nodes, done'))
    {interface binding : String} (hpair : (interface, binding) ∈ done') :
    (interface, binding) ∈ done ∨ ∃ role, .request interface role binding ∈ steps := by
  induction steps generalizing done nodes with
  | nil =>
    cases h
    exact .inl hpair
  | cons step steps ih =>
    obtain ⟨first, middle, others, hf, ho, rfl⟩ := s.performAll_cons_ok h
    rcases ih ho with hmiddle | ⟨role, hmem⟩
    · rcases s.perform_state hf with rfl | ⟨asked, role, variable_, rfl, rfl⟩
      · exact .inl hmiddle
      · rcases List.mem_cons.mp hmiddle with heq | hdone
        · obtain ⟨rfl, rfl⟩ := Prod.mk.inj heq
          exact .inr ⟨role, List.mem_cons_self⟩
        · exact .inl hdone
    · exact .inr ⟨role, List.mem_cons_of_mem _ hmem⟩

end Frame

theorem request_hasInterface {s : Setting} {sites : List Site} (hindex : s.index.IsOf sites)
    {interface binding : String} {role : Role}
    (h : .request interface role binding ∈ sites.flatMap s.stepsAt) :
    s.index.hasInterface interface = true := by
  obtain ⟨site, hsite, hmem⟩ := List.mem_flatMap.mp h
  rcases s.mem_stepsAt.mp hmem with ⟨type, -, -, hasks⟩ | ⟨⟨decl, hdecl⟩, -, -⟩
  · cases hasks with
    | own hi hr => exact hi
    | typed ht hl hne hr => exact Index.hasInterface_of_lookup hl
    | built ht hl hown hc hresult hne =>
      obtain ⟨_, -, name, -, hfound⟩ := mem_constructed.mp hresult
      exact Index.hasInterface_of_lookup hfound
  · exact hindex.hasInterface_iff.mpr ⟨decl, List.mem_flatMap.mpr ⟨site, hsite, hdecl⟩⟩

section Roots

variable {s : Setting} {sites : List Site}

theorem request_root (hindex : s.index.IsOf sites) (hnames : WellNamed sites)
    {interface binding : String} {role : Role}
    (h : .request interface role binding ∈ sites.flatMap s.stepsAt) :
    Name.root binding ∈ rootsOf sites := by
  obtain ⟨site, hsite, hvalue⟩ := (request_serves hindex hnames h).value
  exact mem_rootsOf hsite (List.mem_append_left _ (Site.owner_of_value hvalue))

theorem emits_root (hindex : s.index.IsOf sites) (hnames : WellNamed sites) {node : Node}
    (hplain : node.isPlaceholder = false) (h : s.Emits [] (sites.flatMap s.stepsAt) node) :
    Name.root node.id ∈ rootsOf sites := by
  obtain ⟨site, hsite, owner, howner, hstands, -⟩ :=
    (emits_origin hindex hnames hplain h).owner hnames
  rw [hstands.within.root_eq]
  exact mem_rootsOf hsite (List.mem_append_left _ howner)

end Roots

/-- A part of a corpus has the plan that it has alone, and it can be carried out in the whole. -/
theorem performAll_part {whole part : FiledIndex} {before sites after : List Site}
    {options : Options}
    (hw : whole.IsOf (before ++ sites ++ after)) (hp : part.IsOf sites)
    (hscopes : ScopesDeclared "" sites) (hscopes' : ScopesDeclared "" (before ++ after))
    (h : Unrelated sites (before ++ after))
    (hobject : ∀ interface, (Setting.mk whole options).takesObject interface =
      (Setting.mk part options).takesObject interface) :
    (Setting.mk whole options).performAll (sites.flatMap (Setting.mk whole options).stepsAt) =
      (Setting.mk part options).performAll (sites.flatMap (Setting.mk part options).stepsAt) := by
  have hwidens := hw.widens hp hscopes hscopes' h
  have hsteps : sites.flatMap (Setting.mk whole options).stepsAt =
      sites.flatMap (Setting.mk part options).stepsAt :=
    List.flatMap_congr fun site hsite =>
      stepsAt_widens options hwidens hp hsite (h.apart hscopes hsite)
  rw [hsteps]
  refine performAll_widens hwidens hobject (fun interface role binding hmem => ?_)
  exact hwidens.declared interface (request_hasInterface hp hmem)

theorem takesObject_eq_false {index : FiledIndex} {options : Options}
    (h : options.objectHeritage = false ∨ index.hasInterface objectName = false)
    (interface : String) : (Setting.mk index options).takesObject interface = false := by
  rcases h with h | h
  · simp [takesObject, h]
  · simp [takesObject, h]

end Setting

theorem Index.IsOf.hasInterface_append {whole first second : Index} {sites sites' : List Site}
    (hw : whole.IsOf (sites ++ sites')) (h : first.IsOf sites) (h' : second.IsOf sites')
    (name : String) :
    whole.hasInterface name = (first.hasInterface name || second.hasInterface name) := by
  rw [Bool.eq_iff_iff, Bool.or_eq_true, hw.hasInterface_iff, h.hasInterface_iff,
    h'.hasInterface_iff, List.flatMap_append]
  simp only [List.mem_append, exists_or]

structure Index.IsOfFiles (index : Index) (sites : List Site) : Prop extends index.IsOf sites where
  names : WellNamed sites
  scopes : ScopesDeclared "" sites

theorem Corpus.index_isOfFiles (files : List SourceFile) :
    (Corpus.ofFiles files).index.IsOfFiles (fileSites .stepwise files) where
  toIsOf := by
    have hindex := (Corpus.ofFiles files).index_isOf
    rwa [Corpus.fileSites_ofFiles] at hindex
  names := wellNamed_fileSites files
  scopes := fileSites_scopes files

namespace Setting

section Both

variable {whole first second : FiledIndex} {sites sites' : List Site} {options : Options}

theorem request_new (hp : first.IsOfFiles sites) (hp' : second.IsOfFiles sites')
    (h : Unrelated sites sites') {nodes : List Node} {done : List (String × String)}
    (hrun : (Setting.mk first options).performAll
      (sites.flatMap (Setting.mk first options).stepsAt) [] = .ok (nodes, done))
    {interface binding : String} {role : Role}
    (hrequest : .request interface role binding ∈
      sites'.flatMap (Setting.mk second options).stepsAt) : (interface, binding) ∉ done := by
  intro hdone
  rcases performAll_done _ hrun hdone with hnone | ⟨role', hmem⟩
  · exact absurd hnone List.not_mem_nil
  · have hroot := request_root hp.toIsOf hp.names hmem
    exact (h.1 _ hroot).1 (request_root hp'.toIsOf hp'.names hrequest)

/-- The plans of two unrelated parts are carried out one after the other, each as if it were alone.
-/
theorem performAll_unrelated (hw : whole.IsOf (sites ++ sites')) (hp : first.IsOfFiles sites)
    (hp' : second.IsOfFiles sites') (h : Unrelated sites sites')
    (hobject : options.objectHeritage = false ∨
      (first.hasInterface objectName = false ∧ second.hasInterface objectName = false))
    {nodes nodes' : List Node} {done done' : List (String × String)}
    (hrun : (Setting.mk first options).performAll
      (sites.flatMap (Setting.mk first options).stepsAt) [] = .ok (nodes, done))
    (hrun' : (Setting.mk second options).performAll
      (sites'.flatMap (Setting.mk second options).stepsAt) [] = .ok (nodes', done')) :
    (Setting.mk whole options).performAll
      ((sites ++ sites').flatMap (Setting.mk whole options).stepsAt) [] =
        .ok (nodes ++ nodes', done' ++ done) := by
  have hwhole : ∀ interface, (Setting.mk whole options).takesObject interface = false := by
    refine takesObject_eq_false (hobject.imp_right fun hnone => ?_)
    rw [hw.hasInterface_append hp.toIsOf hp'.toIsOf, hnone.1, hnone.2]
    rfl
  have hbefore : whole.IsOf ([] ++ sites ++ sites') := hw
  have hafter : whole.IsOf (sites ++ sites' ++ []) := by simpa using hw
  have hfirst := performAll_part hbefore hp.toIsOf hp.scopes hp'.scopes h (fun interface =>
    (hwhole interface).trans (takesObject_eq_false (hobject.imp_right And.left) interface).symm)
  have hsecond := performAll_part hafter hp'.toIsOf hp'.scopes (by simpa using hp.scopes)
    (by simpa using h.symm) (fun interface =>
      (hwhole interface).trans (takesObject_eq_false (hobject.imp_right And.right) interface).symm)
  -- the second plan starts with the pairs of the first one, and asks for none of them
  have hframe := performAll_frame (Setting.mk second options)
    (fun interface role binding hmem => request_new hp hp' h hrun hmem) []
  rw [hrun', List.nil_append] at hframe
  rw [List.flatMap_append, performAll_append, hfirst, hsecond]
  show ((Setting.mk first options).performAll _ [] >>= _) = _
  rw [hrun]
  show ((Setting.mk second options).performAll _ done >>= _) = _
  rw [hframe]
  rfl

theorem emits_new (hp : first.IsOfFiles sites) (hp' : second.IsOfFiles sites')
    (h : Unrelated sites sites') {nodes nodes' : List Node}
    (hmem : ∀ node ∈ nodes,
      (Setting.mk first options).Emits [] (sites.flatMap (Setting.mk first options).stepsAt) node)
    (hmem' : ∀ node ∈ nodes', (Setting.mk second options).Emits []
      (sites'.flatMap (Setting.mk second options).stepsAt) node) :
    ∀ node ∈ nodes', node.isPlaceholder = false →
      node.id ∉ (Registry.empty.saveAll nodes).names := by
  intro node hnode hplain hname
  rcases (Registry.mem_names_saveAll _ _ _).mp hname with hnone | ⟨other, hother, hplain', hid⟩
  · exact absurd hnone List.not_mem_nil
  · have hroot := emits_root hp.toIsOf hp.names hplain' (hmem other hother)
    rw [hid] at hroot
    exact (h.1 _ hroot).1 (emits_root hp'.toIsOf hp'.names hplain (hmem' node hnode))

end Both

end Setting

/-- If neither list of files declares a root that the other one declares or looks up, and nothing is
taken from `Object`, the catalog of all files is the one catalog followed by the other, and so are
the diagnostics. -/
theorem Catalog.build_append (options : Options) {files files' : List SourceFile}
    (h : Unrelated (fileSites .stepwise files) (fileSites .stepwise files'))
    (hobject : options.objectHeritage = false ∨
      ((Corpus.ofFiles files).index.hasInterface objectName = false ∧
        (Corpus.ofFiles files').index.hasInterface objectName = false)) :
    ∃ catalog catalog', build (Corpus.ofFiles files) options = .ok catalog ∧
      build (Corpus.ofFiles files') options = .ok catalog' ∧
      build (Corpus.ofFiles (files ++ files')) options =
        .ok ⟨⟨catalog.registry.table ++ catalog'.registry.table⟩,
          catalog.diagnostics ++ catalog'.diagnostics⟩ := by
  have hp : (Corpus.ofFiles files).filedIndex.IsOfFiles _ := Corpus.index_isOfFiles files
  have hp' : (Corpus.ofFiles files').filedIndex.IsOfFiles _ := Corpus.index_isOfFiles files'
  have hw : (Corpus.ofFiles (files ++ files')).filedIndex.IsOf _ :=
    (Corpus.index_isOfFiles (files ++ files')).toIsOf
  rw [fileSites_append] at hw
  have hfirst := build_run (Corpus.ofFiles files) options
  have hsecond := build_run (Corpus.ofFiles files') options
  rw [Corpus.fileSites_ofFiles] at hfirst hsecond
  obtain ⟨nodes, done, hrun, hbuild, hmem⟩ := hfirst
  obtain ⟨nodes', done', hrun', hbuild', hmem'⟩ := hsecond
  have hnew := Setting.emits_new hp hp' h (fun node => (hmem node).mp) (fun node => (hmem' node).mp)
  have hboth := Setting.performAll_unrelated hw hp hp' h hobject hrun hrun'
  have hsaved : Registry.empty.saveAll (nodes ++ nodes') =
      ⟨(Registry.empty.saveAll nodes).table ++ (Registry.empty.saveAll nodes').table⟩ := by
    rw [← Registry.saveAll_fresh _ hnew Registry.empty]
    simp [Registry.saveAll, Registry.empty]
  refine ⟨_, _, hbuild, hbuild', ?_⟩
  rw [build_eq, Corpus.fileSites_ofFiles, fileSites_append, hboth, List.flatMap_append, ← hsaved]
  rfl

def intlFile : SourceFile :=
  { id := 0
    specifier := "file:///intl.d.ts"
    mediaType := .dts
    items := [
      .mk ⟨1, 1⟩ (.plain (.namespaceDecl true ["Intl"] [
        .mk ⟨2, 1⟩ (.plain (.variableDecl ⟨true, false,
          [.ident "Collator" (some (.reference (.ident "CollatorConstructor") []))]⟩)),
        .mk ⟨3, 1⟩ (.plain (.interfaceDecl ⟨"CollatorConstructor", [],
          [.construct (.mk [] [] (some (.reference (.ident "Collator") [])))]⟩)),
        .mk ⟨4, 1⟩ (.plain (.interfaceDecl ⟨"Collator", [],
          [.method (.ident "compare") false (.mk [] [] none)]⟩))])),
      .mk ⟨5, 1⟩ (.plain .enumDecl)]
    named := by decide }

theorem Catalog.build_append_intl :
    Unrelated (fileSites .stepwise [mapTypes, mapGlobals]) (fileSites .stepwise [intlFile]) ∧
      ∃ catalog catalog',
        build (Corpus.ofFiles [mapTypes, mapGlobals]) { objectHeritage := false } = .ok catalog ∧
        build (Corpus.ofFiles [intlFile]) { objectHeritage := false } = .ok catalog' ∧
        build (Corpus.ofFiles [mapTypes, mapGlobals, intlFile]) { objectHeritage := false } =
          .ok ⟨⟨catalog.registry.table ++ catalog'.registry.table⟩,
            catalog.diagnostics ++ catalog'.diagnostics⟩ := by
  have h : Unrelated (fileSites .stepwise [mapTypes, mapGlobals])
      (fileSites .stepwise [intlFile]) := by decide
  exact ⟨h, build_append { objectHeritage := false } h (.inl rfl)⟩

end AmbientCatalog
