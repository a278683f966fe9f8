import AmbientCatalog.Proofs.OwnNodes

/-!
# Nodes of namespaces

Namespaces can have nodes of their own in the catalog. Leaving these out takes them out of the
overloads of their names and changes nothing else, because a namespace node is one step of the plan
and no other step depends on it. With them, each leading part of the name of a namespace has exactly
one such node, however often the namespace is opened and whether it is declared or not.
-/

set_option autoImplicit false

namespace AmbientCatalog

namespace Name

def Leads (name whole : String) : Prop := name ≠ "" ∧ Within name whole

instance (name whole : String) : Decidable (Leads name whole) :=
  inferInstanceAs (Decidable (name ≠ "" ∧ Within name whole))

theorem prefix_of_dotless {front left right : List Char} (h : front ++ ['.'] <+: left ++ right)
    (hr : '.' ∉ right) : front ++ ['.'] <+: left := by
  rcases List.prefix_or_prefix_of_prefix h (List.prefix_append left right) with hp | ⟨rest, heq⟩
  · exact hp
  · rw [← heq] at h
    have hrest := (List.prefix_append_right_inj left).mp h
    cases rest using List.reverseRecOn with
    | nil => exact ⟨[], by simpa using heq.symm⟩
    | append_singleton rest c =>
      obtain ⟨-, rfl⟩ := List.append_singleton_inj.mp ((List.append_assoc ..).trans heq)
      exact absurd (hrest.subset (by simp)) hr

theorem eq_empty_of_within {name : String} (h : Within name "") : name = "" := by
  rcases h with heq | hdot
  · exact heq.symm
  · simp at hdot

theorem Within.of_qualify {name label scope : String} (hl : IsIdentifier label)
    (h : Within name (qualify label scope)) : name = qualify label scope ∨ Within name scope := by
  rcases h with heq | hdot
  · exact .inl heq.symm
  rw [String.toList_append] at hdot
  by_cases hs : scope = ""
  · have hnone : name.toList ++ ['.'] <+: [] := prefix_of_dotless (by simpa [hs] using hdot) hl.2
    simp at hnone
  · rw [toList_qualify hl.1 hs, List.append_cons] at hdot
    rcases List.prefix_concat_iff.mp (prefix_of_dotless hdot hl.2) with heq | hp
    · exact .inr (.inl (String.toList_inj.mp (List.append_cancel_right heq)).symm)
    · exact .inr (.inr (by simpa using hp))

end Name

theorem within_stepwise {scope : String} (hs : scope ≠ "") (parts : List String) :
    Name.Within scope (Nesting.stepwise scope parts) := by
  induction parts generalizing scope with
  | nil => exact .inl rfl
  | cons part parts ih =>
    exact (Name.within_qualify hs part).trans (ih (Name.qualify_ne_empty_of_scope hs part))

theorem leads_of_mem_namespacesIn {scope name : String} {parts : List String}
    (hparts : ∀ part ∈ parts, Name.IsIdentifier part) (h : name ∈ namespacesIn scope parts) :
    Name.Leads name (Nesting.stepwise scope parts) := by
  induction parts generalizing scope with
  | nil => exact absurd h List.not_mem_nil
  | cons part parts ih =>
    rcases List.mem_cons.mp h with rfl | hlater
    · have hne := Name.qualify_ne_empty (hparts part List.mem_cons_self).1 scope
      exact ⟨hne, within_stepwise hne parts⟩
    · exact ih (fun later hmem => hparts later (List.mem_cons_of_mem _ hmem)) hlater

theorem mem_namespacesIn_of_within {scope name : String} {parts : List String}
    (hparts : ∀ part ∈ parts, Name.IsIdentifier part)
    (h : Name.Within name (Nesting.stepwise scope parts)) :
    name ∈ namespacesIn scope parts ∨ Name.Within name scope := by
  induction parts generalizing scope with
  | nil => exact .inr h
  | cons part parts ih =>
    rcases ih (fun later hmem => hparts later (List.mem_cons_of_mem _ hmem)) h with hmem | hin
    · exact .inl (List.mem_cons_of_mem _ hmem)
    · rcases hin.of_qualify (hparts part List.mem_cons_self) with rfl | hscope
      · exact .inl List.mem_cons_self
      · exact .inr hscope

namespace Site

def namespaces (site : Site) : List String :=
  match site.decl? with
  | some (.namespaceDecl _ parts _) => namespacesIn site.scope parts
  | _ => []

def blocks (site : Site) : List String :=
  match site.decl? with
  | some (.namespaceDecl _ parts _) => [Nesting.stepwise site.scope parts]
  | _ => []

end Site

def ScopesOpened (outer : String) (sites : List Site) : Prop :=
  WellNamed sites → ∀ site ∈ sites, ∀ name, Name.Within name site.scope →
    Name.Within name outer ∨ ∃ around ∈ sites, name ∈ around.namespaces

theorem scopesOpened_compositional : Compositional ScopesOpened where
  nothing := by simp [ScopesOpened]
  joined := by
    intro scope sites sites' h h' hnames site hsite name hname
    rcases List.mem_append.mp hsite with hsite | hsite
    · refine (h hnames.left site hsite name hname).imp_right ?_
      exact fun ⟨around, haround, hin⟩ => ⟨around, List.mem_append_left _ haround, hin⟩
    · refine (h' hnames.right site hsite name hname).imp_right ?_
      exact fun ⟨around, haround, hin⟩ => ⟨around, List.mem_append_right _ haround, hin⟩
  single := by
    intro specifier scope start decl? _ site hsite name hname
    obtain rfl := List.mem_singleton.mp hsite
    exact .inl hname
  inside := by
    intro sites specifier scope start isDeclared parts items h hnames site hsite name hname
    have hparts : ∀ part ∈ parts, Name.IsIdentifier part := hnames _ List.mem_cons_self
    rcases List.mem_cons.mp hsite with rfl | hsite
    · exact .inl hname
    · have hinner : WellNamed sites := fun site hs => hnames site (List.mem_cons_of_mem _ hs)
      rcases h hinner site hsite name hname with hblock | ⟨around, haround, hin⟩
      · rcases mem_namespacesIn_of_within hparts hblock with hmem | hscope
        · exact .inr ⟨_, List.mem_cons_self, hmem⟩
        · exact .inl hscope
      · exact .inr ⟨around, List.mem_cons_of_mem _ haround, hin⟩

/-- The namespaces that a corpus declares are what leads the names of its blocks. -/
theorem mem_namespaces_iff (files : List SourceFile) (name : String) :
    name ∈ (fileSites .stepwise files).flatMap Site.namespaces ↔
      ∃ block ∈ (fileSites .stepwise files).flatMap Site.blocks, Name.Leads name block := by
  have hnames := wellNamed_fileSites files
  constructor
  · intro h
    obtain ⟨⟨specifier, scope, start, decl?⟩, hsite, hin⟩ := List.mem_flatMap.mp h
    have hparts := hnames _ hsite
    cases decl? with
    | none => simp [Site.namespaces] at hin
    | some declared =>
      cases declared with
      | namespaceDecl isDeclared parts items =>
        exact ⟨_, List.mem_flatMap.mpr ⟨_, hsite, List.mem_singleton_self _⟩,
          leads_of_mem_namespacesIn hparts hin⟩
      | _ => simp [Site.namespaces] at hin
  · rintro ⟨block, hblock, hne, hwithin⟩
    obtain ⟨⟨specifier, scope, start, decl?⟩, hsite, hin⟩ := List.mem_flatMap.mp hblock
    have hparts := hnames _ hsite
    cases decl? with
    | none => simp [Site.blocks] at hin
    | some declared =>
      cases declared with
      | namespaceDecl isDeclared parts items =>
        obtain rfl := List.mem_singleton.mp hin
        rcases mem_namespacesIn_of_within hparts hwithin with hmem | hscope
        · exact List.mem_flatMap.mpr ⟨_, hsite, hmem⟩
        · rcases scopesOpened_compositional.ofFiles files hnames _ hsite name hscope with
            houter | ⟨around, haround, hmem⟩
          · exact absurd (Name.eq_empty_of_within houter) hne
          · exact List.mem_flatMap.mpr ⟨around, haround, hmem⟩
      | _ => simp [Site.blocks] at hin

theorem Registry.length_eraseDupsBy {nodes : List Node} {record : Record}
    (h : ∀ node ∈ nodes, node.record = record) :
    (nodes.eraseDupsBy sameRecord).length = if nodes.isEmpty then 0 else 1 := by
  induction nodes using List.reverseRecOn with
  | nil => rfl
  | append_singleton nodes node ih =>
    have hnode : node.record = record := h node (by simp)
    have hnodes : ∀ earlier ∈ nodes, earlier.record = record :=
      fun earlier hmem => h earlier (List.mem_append_left _ hmem)
    rw [eraseDupsBy_concat, List.length_append, ih hnodes]
    cases nodes with
    | nil => simp
    | cons first rest => simp [hnode, hnodes first List.mem_cons_self]

theorem Registry.mem_names_saveAll_iff (nodes : List Node) (name : String) :
    name ∈ (empty.saveAll nodes).names ↔ ∃ node, node ∈ (empty.saveAll nodes).overloads name := by
  have hrecords : (∃ node, node ∈ (empty.saveAll nodes).overloads name) ↔
      ∃ record, record ∈ ((empty.saveAll nodes).overloads name).map Node.record := by
    simp
  rw [hrecords, mem_names_saveAll]
  simp only [mem_records_saveAll]
  simp [empty, names]

namespace Setting

def withNamespaces (s : Setting) (isKept : Bool) : Setting :=
  ⟨s.index, { s.options with namespaceNodes := isKept }⟩

variable (s : Setting)

theorem performAll_withNamespaces (isKept : Bool) (steps : List Step) :
    (s.withNamespaces isKept).performAll steps = s.performAll steps := by
  refine performAll_congr (fun step => ?_) steps
  cases step <;> rfl

/-- Leaving out the nodes of namespaces takes their steps out of the plan. -/
theorem stepsAt_withoutNamespaces (site : Site) :
    (s.withNamespaces false).stepsAt site = ((s.withNamespaces true).stepsAt site).filter
      (fun step => step.fixed.all (fun node => node.kind ≠ .moduleDeclaration)) := by
  have hother : site.ownKind? ≠ some .moduleDeclaration →
      ((s.withNamespaces true).stepsAt site).filter
        (fun step => step.fixed.all (fun node => node.kind ≠ .moduleDeclaration)) =
      (s.withNamespaces true).stepsAt site := by
    intro hkind
    refine List.filter_eq_self.mpr fun step hstep => List.all_eq_true.mpr fun node hnode => ?_
    refine decide_eq_true fun hmodule => hkind ?_
    rw [← hmodule]
    exact (s.withNamespaces true).ownKind_of_fixed hstep hnode (by rw [hmodule]; rfl)
  obtain ⟨specifier, scope, start, decl?⟩ := site
  cases decl? with
  | none => rfl
  | some declared =>
    cases declared with
    | namespaceDecl isDeclared parts items =>
      refine (List.filter_eq_nil_iff.mpr fun step hstep => ?_).symm
      obtain ⟨node, hnode, rfl⟩ := List.mem_map.mp hstep
      rw [namespaceNodes_eq] at hnode
      obtain ⟨name, -, rfl⟩ := List.mem_map.mp hnode
      simp [Step.fixed, namespaceNode]
    | _ => exact (hother (by simp [Site.ownKind?])).symm

theorem ownNodes_namespaces (site : Site) :
    ∃ isDeclared, (s.withNamespaces true).ownNodes .moduleDeclaration site =
      site.namespaces.map (namespaceNode isDeclared) := by
  obtain ⟨specifier, scope, start, decl?⟩ := site
  cases decl? with
  | none => exact ⟨false, rfl⟩
  | some declared =>
    cases declared with
    | namespaceDecl isDeclared parts items =>
      have hsteps : (s.withNamespaces true).stepsAt
          ⟨specifier, scope, start, some (.namespaceDecl isDeclared parts items)⟩ =
            (namespaceNodes isDeclared scope parts).1.map .node := rfl
      refine ⟨isDeclared, ?_⟩
      rw [ownNodes, hsteps, flatMap_fixed_node, namespaceNodes_eq, Site.namespaces,
        List.filter_eq_self]
      intro node hnode
      obtain ⟨name, -, rfl⟩ := List.mem_map.mp hnode
      rfl
    | _ => exact ⟨false, ownNodes_eq_nil _ rfl (by simp [Site.ownKind?])⟩

/-- However many statements declare a namespace, one of its nodes is kept. -/
theorem length_namespaceNodes (sites : List Site) (name : String) :
    (((sites.flatMap ((s.withNamespaces true).ownNodes .moduleDeclaration)).filter
      (fun node => node.id = name)).eraseDupsBy Registry.sameRecord).length =
        if name ∈ sites.flatMap Site.namespaces then 1 else 0 := by
  have hown : ∀ site, ∀ node ∈ (s.withNamespaces true).ownNodes .moduleDeclaration site,
      node.id ∈ site.namespaces ∧ node.record = (namespaceNode false node.id).record := by
    intro site node hnode
    obtain ⟨isDeclared, hnodes⟩ := s.ownNodes_namespaces site
    rw [hnodes] at hnode
    obtain ⟨name, hname, rfl⟩ := List.mem_map.mp hnode
    -- the hidden tag is all in which a declared namespace differs
    exact ⟨hname, by cases isDeclared <;> rfl⟩
  have hrecord : ∀ node ∈ (sites.flatMap ((s.withNamespaces true).ownNodes
      .moduleDeclaration)).filter (fun node => node.id = name),
      node.record = (namespaceNode false name).record := by
    intro node hnode
    obtain ⟨hmem, hid⟩ := List.mem_filter.mp hnode
    obtain ⟨site, -, hin⟩ := List.mem_flatMap.mp hmem
    rw [(hown site node hin).2, of_decide_eq_true hid]
  rw [Registry.length_eraseDupsBy hrecord]
  by_cases hname : name ∈ sites.flatMap Site.namespaces
  · obtain ⟨site, hsite, hin⟩ := List.mem_flatMap.mp hname
    obtain ⟨isDeclared, hnodes⟩ := s.ownNodes_namespaces site
    have hmem : namespaceNode isDeclared name ∈
        sites.flatMap ((s.withNamespaces true).ownNodes .moduleDeclaration) :=
      List.mem_flatMap.mpr ⟨site, hsite, hnodes ▸ List.mem_map_of_mem hin⟩
    have hsome : ((sites.flatMap ((s.withNamespaces true).ownNodes .moduleDeclaration)).filter
        (fun node => node.id = name)).isEmpty = false :=
      List.isEmpty_eq_false_iff_exists_mem.mpr
        ⟨_, List.mem_filter.mpr ⟨hmem, decide_eq_true rfl⟩⟩
    rw [if_pos hname, hsome]
    rfl
  · have hnone : (sites.flatMap ((s.withNamespaces true).ownNodes .moduleDeclaration)).filter
        (fun node => node.id = name) = [] := by
      refine List.filter_eq_nil_iff.mpr fun node hnode hid => hname ?_
      obtain ⟨site, hsite, hin⟩ := List.mem_flatMap.mp hnode
      exact List.mem_flatMap.mpr ⟨site, hsite, of_decide_eq_true hid ▸ (hown site node hin).1⟩
    rw [if_neg hname, hnone]
    rfl

end Setting

namespace Catalog

/-- Without the nodes of namespaces every name keeps its other overloads in their order, and the
diagnostics are the same. With them a name has one such node if it leads the name of a block. -/
theorem build_namespaceNodes (corpus : Corpus) (options : Options) :
    ∃ bare full, build corpus { options with namespaceNodes := false } = .ok bare ∧
      build corpus { options with namespaceNodes := true } = .ok full ∧
      (∀ name, bare.registry.overloads name =
        (full.registry.overloads name).filter (fun node => node.kind ≠ .moduleDeclaration)) ∧
      (∀ name, name ∈ bare.registry.names ↔
        ∃ node ∈ full.registry.overloads name, node.kind ≠ .moduleDeclaration) ∧
      bare.diagnostics = full.diagnostics ∧
      ∀ name, ¬Node.placeholderId.toList <+: name.toList →
        ((full.registry.overloads name).filter
          (fun node => node.kind = .moduleDeclaration)).length =
        if ∃ block ∈ (fileSites .stepwise corpus.files).flatMap Site.blocks, Name.Leads name block
        then 1 else 0 := by
  let s : Setting := (corpus.setting options)
  have hindex : (s.withNamespaces true).index.IsOf (fileSites .stepwise corpus.files) :=
    corpus.index_isOf
  obtain ⟨nodes, done, hrun, hfull, -⟩ := build_run corpus { options with namespaceNodes := true }
  let isKept : Node → Bool := fun node => node.kind ≠ .moduleDeclaration
  have hmember : ∀ node : Node, node.IsMember → isKept node = true := by
    intro node hnode
    refine decide_eq_true fun hmodule => ?_
    exact absurd hnode.isOwn (by simp [hmodule, Kind.isOwn])
  have hrecord : ∀ node other : Node, node.record = other.record → isKept node = isKept other :=
    fun node other heq => by simp only [isKept, Node.kind_eq_of_record heq]
  -- without the nodes of namespaces, the run goes the same way and yields the other nodes
  have hbare : build corpus { options with namespaceNodes := false } =
      .ok ⟨Registry.empty.saveAll (nodes.filter isKept),
        (fileSites .stepwise corpus.files).flatMap Site.diagnostics⟩ := by
    have hkept := (s.withNamespaces true).performAll_filter corpus.hasInterface_empty
      (Setting.stepsAt_named hindex (wellNamed_fileSites corpus.files)) hmember hrun
    rw [List.filter_flatMap, ← funext s.stepsAt_withoutNamespaces,
      s.performAll_withNamespaces, ← s.performAll_withNamespaces false] at hkept
    rw [build_eq]
    exact congrArg (Except.map _) hkept
  refine ⟨_, _, hbare, hfull, fun name => ?_, fun name => ?_, rfl, fun name hplain => ?_⟩
  · rw [Registry.overloads_saveAll, Registry.overloads_saveAll]
    exact (Registry.filter_firstOverloads hrecord nodes name).symm
  · rw [Registry.mem_names_saveAll_iff, Registry.overloads_saveAll, Registry.overloads_saveAll,
      ← Registry.filter_firstOverloads hrecord]
    simp [isKept]
  · rw [overloads_ofKind hfull rfl hplain]
    exact (s.length_namespaceNodes _ name).trans
      (if_congr (mem_namespaces_iff corpus.files name) rfl rfl)

end Catalog

end AmbientCatalog
