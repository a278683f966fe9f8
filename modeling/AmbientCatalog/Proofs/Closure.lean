import AmbientCatalog.Proofs.Expansion
import AmbientCatalog.Proofs.Scoping
import Mathlib.Data.List.Basic
import Mathlib.Data.List.Nodup
import Mathlib.Logic.Relation

/-!
# The closure of inheritance

The interfaces that bring members to an interface are those that can be reached from it through its
bases, and those reached from `Object` where it is added. The search visits each of them once, so
the gathered nodes are one for every member of every declaration of every reached interface. The
interfaces that a search visits for the first time are its `fresh` ones; what is known about them is
put into `Adds`, which composes along the search.
-/

set_option autoImplicit false

namespace AmbientCatalog

def Index.Extends (index : Index) (child parent : String) : Prop :=
  ∃ decl ∈ index.interfaces child, ∃ base ∈ decl.bases, ∃ text,
    base.entityText = some text ∧ index.lookup text (Name.parent child) = some parent

def Index.Reaches (index : Index) : String → String → Prop :=
  Relation.ReflTransGen index.Extends

def Index.elements (index : Index) (name : String) : List Member :=
  (index.interfaces name).flatMap InterfaceDecl.members

def Index.parents (index : Index) (name : String) : List String :=
  (index.interfaces name).flatMap
    (fun decl => decl.bases.filterMap (Heritage.baseName? index (Name.parent name)))

theorem Index.mem_parents {index : Index} {child parent : String} :
    parent ∈ index.parents child ↔ index.Extends child parent := by
  simp [Index.parents, Index.Extends, Heritage.baseName?, Option.bind_eq_some_iff]

def Index.ExtendsOutside (index : Index) (visited : List String) (child parent : String) : Prop :=
  index.Extends child parent ∧ parent ∉ visited

namespace Heritage

/-- What a search that starts at some targets adds to the interfaces visited before. -/
structure Adds (index : Index) (targets visited fresh : List String) : Prop where
  nodup : fresh.Nodup
  isNew : ∀ n ∈ fresh, n ∉ visited
  covers : ∀ t ∈ targets, t ∈ fresh ++ visited
  closed : ∀ n ∈ fresh, ∀ m, index.Extends n m → m ∈ fresh ++ visited
  reached : ∀ n ∈ fresh, ∃ t ∈ targets, t ∉ visited ∧
    Relation.ReflTransGen (index.ExtendsOutside visited) t n

theorem Adds.none (index : Index) (visited : List String) : Adds index [] visited [] where
  nodup := List.nodup_nil
  isNew := by simp
  covers := by simp
  closed := by simp
  reached := by simp

theorem Adds.visited {index : Index} {target : String} {targets visited fresh : List String}
    (hv : target ∈ visited) (h : Adds index targets visited fresh) :
    Adds index (target :: targets) visited fresh where
  nodup := h.nodup
  isNew := h.isNew
  covers := by
    intro t ht
    rcases List.mem_cons.mp ht with rfl | ht
    · exact List.mem_append_right _ hv
    · exact h.covers t ht
  closed := h.closed
  reached := by
    intro n hn
    obtain ⟨t, ht, hr⟩ := h.reached n hn
    exact ⟨t, List.mem_cons_of_mem _ ht, hr⟩

theorem outside_mono {index : Index} {visited visited' : List String} (h : visited ⊆ visited')
    {t n : String} (hr : Relation.ReflTransGen (index.ExtendsOutside visited') t n) :
    Relation.ReflTransGen (index.ExtendsOutside visited) t n :=
  Relation.ReflTransGen.mono (fun _ _ hstep => ⟨hstep.1, fun hin => hstep.2 (h hin)⟩) _ _ hr

theorem Adds.append {index : Index} {targets targets' visited fresh fresh' : List String}
    (h : Adds index targets visited fresh) (h' : Adds index targets' (fresh ++ visited) fresh') :
    Adds index (targets ++ targets') visited (fresh' ++ fresh) where
  nodup := by
    refine List.nodup_append'.mpr ⟨h'.nodup, h.nodup, ?_⟩
    intro n hn' hn
    exact h'.isNew n hn' (List.mem_append_left _ hn)
  isNew := by
    intro n hn hv
    rcases List.mem_append.mp hn with hn | hn
    · exact h'.isNew n hn (List.mem_append_right _ hv)
    · exact h.isNew n hn hv
  covers := by
    intro t ht
    rw [List.append_assoc]
    rcases List.mem_append.mp ht with ht | ht
    · exact List.mem_append_right _ (h.covers t ht)
    · exact h'.covers t ht
  closed := by
    intro n hn m hm
    rw [List.append_assoc]
    rcases List.mem_append.mp hn with hn | hn
    · exact h'.closed n hn m hm
    · exact List.mem_append_right _ (h.closed n hn m hm)
  reached := by
    intro n hn
    rcases List.mem_append.mp hn with hn | hn
    · obtain ⟨t, ht, hv, hr⟩ := h'.reached n hn
      exact ⟨t, List.mem_append_right _ ht, fun hin => hv (List.mem_append_right _ hin),
        outside_mono (List.subset_append_right _ _) hr⟩
    · obtain ⟨t, ht, hr⟩ := h.reached n hn
      exact ⟨t, List.mem_append_left _ ht, hr⟩

/-- A search from one new interface, which is visited first and then left through its parents. -/
theorem Adds.expanded {index : Index} {name : String} {visited fresh : List String}
    (hv : name ∉ visited) (h : Adds index (index.parents name) (name :: visited) fresh) :
    Adds index [name] visited (fresh ++ [name]) where
  nodup := by
    refine List.nodup_append'.mpr ⟨h.nodup, List.nodup_singleton _, ?_⟩
    intro n hn hname
    obtain rfl := List.mem_singleton.mp hname
    exact h.isNew n hn List.mem_cons_self
  isNew := by
    intro n hn hin
    rcases List.mem_append.mp hn with hn | hn
    · exact h.isNew n hn (List.mem_cons_of_mem _ hin)
    · exact hv (List.mem_singleton.mp hn ▸ hin)
  covers := by simp
  closed := by
    intro n hn m hm
    rw [List.append_assoc]
    rcases List.mem_append.mp hn with hn | hn
    · exact h.closed n hn m hm
    · obtain rfl := List.mem_singleton.mp hn
      exact h.covers m (Index.mem_parents.mpr hm)
  reached := by
    intro n hn
    refine ⟨name, List.mem_singleton_self _, hv, ?_⟩
    rcases List.mem_append.mp hn with hn | hn
    · obtain ⟨t, ht, hnew, hr⟩ := h.reached n hn
      exact Relation.ReflTransGen.head
        ⟨Index.mem_parents.mp ht, fun hin => hnew (List.mem_cons_of_mem _ hin)⟩
        (outside_mono (List.subset_cons_self _ _) hr)
    · exact List.mem_singleton.mp hn ▸ Relation.ReflTransGen.refl

def nodesOf (index : Index) (scope : String) (isStatic : Bool) (name : String) : List Node :=
  (index.elements name).map (Member.node scope isStatic)

/-- A search succeeds, adds what its targets reach, and gathers its own nodes and those of every
interface it adds. -/
def Gathers (index : Index) (scope : String) (isStatic : Bool) (targets visited : List String)
    (own : List Node) (result : Except MemberError Gathered) : Prop :=
  ∃ nodes fresh, result = .ok (nodes, fresh ++ visited) ∧
    nodes.Perm (own ++ fresh.flatMap (nodesOf index scope isStatic)) ∧
    Adds index targets visited fresh

section Search

variable {index : Index} {scope : String} {isStatic : Bool}
  {expand : String → List String → Except MemberError Gathered}

theorem ofBases_gathers {depth : Nat} (inner : String) (bases : List Expr) {visited : List String}
    (hexpand : ∀ name v, index.hasInterface name = true → unvisited index (name :: v) < depth →
      Gathers index scope isStatic (index.parents name) (name :: v)
        (nodesOf index scope isStatic name) (expand name (name :: v)))
    (hdepth : unvisited index visited ≤ depth) :
    Gathers index scope isStatic (bases.filterMap (baseName? index inner)) visited []
      (ofBases index inner expand bases visited) := by
  induction bases generalizing visited with
  | nil => exact ⟨[], [], rfl, List.Perm.refl _, Adds.none index visited⟩
  | cons base bases ih =>
    rw [ofBases]
    cases hb : baseName? index inner base with
    | none => simpa [hb] using ih hdepth
    | some name =>
      rw [List.filterMap_cons_some hb]
      by_cases hv : name ∈ visited
      · obtain ⟨nodes, fresh, hr, hp, ha⟩ := ih hdepth
        exact ⟨nodes, fresh, by simpa [hv] using hr, hp, Adds.visited hv ha⟩
      · have hi := hasInterface_of_baseName hb
        have hlt := unvisited_cons_lt hi hv
        obtain ⟨nodes, fresh, hr, hp, ha⟩ := hexpand name visited hi (by omega)
        have hle : unvisited index (fresh ++ name :: visited) ≤ depth :=
          Nat.le_trans (unvisited_antitone index (List.subset_append_of_subset_right _
            (List.subset_cons_self _ _))) hdepth
        obtain ⟨nodes', fresh', hr', hp', ha'⟩ := ih hle
        have hstep := Adds.expanded hv ha
        refine ⟨nodes ++ nodes', fresh' ++ (fresh ++ [name]), ?_, ?_, ?_⟩
        · simp [hv, hr, hr', bind, Except.bind, pure, Except.pure]
        · refine (hp.append hp').trans ?_
          simp only [List.flatMap_append, List.flatMap_singleton, List.nil_append]
          exact (List.perm_append_comm.append_right _).trans List.perm_append_comm
        · simpa using hstep.append (by simpa using ha')

theorem ofDecls_gathers {depth : Nat} {inner : String} {decls : List InterfaceDecl}
    {visited : List String} (hscope : scope ≠ "")
    (hexpand : ∀ name v, index.hasInterface name = true → unvisited index (name :: v) < depth →
      Gathers index scope isStatic (index.parents name) (name :: v)
        (nodesOf index scope isStatic name) (expand name (name :: v)))
    (hdepth : unvisited index visited ≤ depth) :
    Gathers index scope isStatic
      (decls.flatMap (fun decl => decl.bases.filterMap (baseName? index inner))) visited
      ((decls.flatMap InterfaceDecl.members).map (Member.node scope isStatic))
      (ofDecls index inner (Member.resolve scope isStatic) expand decls visited) := by
  induction decls generalizing visited with
  | nil => exact ⟨[], [], rfl, List.Perm.refl _, Adds.none index visited⟩
  | cons decl decls ih =>
    obtain ⟨nodes, fresh, hr, hp, ha⟩ :=
      ofBases_gathers inner decl.bases hexpand hdepth
    have hle : unvisited index (fresh ++ visited) ≤ depth :=
      Nat.le_trans (unvisited_antitone index (List.subset_append_right _ _)) hdepth
    obtain ⟨nodes', fresh', hr', hp', ha'⟩ := ih hle
    refine ⟨decl.members.map (Member.node scope isStatic) ++ nodes ++ nodes', fresh' ++ fresh,
      ?_, ?_, ?_⟩
    · rw [ofDecls, Member.mapM_resolve_ok hscope, hr]
      simp [hr', bind, Except.bind, pure, Except.pure]
    · refine ((hp.append_left _).append hp').trans ?_
      simp only [List.flatMap_cons, List.map_append, List.flatMap_append, List.nil_append,
        List.append_assoc]
      refine List.Perm.append_left _ ?_
      exact List.perm_append_comm.trans (by rw [List.append_assoc])
    · exact ha.append ha'

end Search

theorem moved_gathers {index : Index} {role : Role} {target name : String} {isStatic : Bool}
    {expand : String → String → List String → Except MemberError Gathered}
    {targets visited : List String} (htarget : target ≠ "") (hname : name ≠ "")
    (h : Gathers index (role.scope name) isStatic targets visited
      (nodesOf index (role.scope name) isStatic name) (expand name (role.scope name) visited)) :
    Gathers index target isStatic targets visited (nodesOf index target isStatic name)
      (moved role expand target name visited) := by
  obtain ⟨nodes, fresh, hr, hp, ha⟩ := h
  have hmoved : ∀ n, (nodesOf index (role.scope name) isStatic n).map
      (Node.rebase (role.scope name) target) = nodesOf index target isStatic n := by
    intro n
    simp only [nodesOf, List.map_map]
    apply List.map_congr_left
    intro member _
    exact Member.rebase_node (role.scope_ne_empty hname) htarget isStatic member
  refine ⟨nodes.map (Node.rebase (role.scope name) target), fresh, ?_, ?_, ha⟩
  · simp [moved, hr, bind, Except.bind, pure, Except.pure]
  · simpa [List.map_flatMap, hmoved] using hp.map (Node.rebase (role.scope name) target)

/-- All members of an interface and of every interface the search adds. -/
theorem members_gathers {index : FiledIndex} (hnamed : index.hasInterface "" = false) (role : Role)
    {depth : Nat} (name : String) {scope : String} {visited : List String} (hscope : scope ≠ "")
    (hdepth : unvisited index visited < depth) :
    Gathers index scope role.isStatic (index.parents name) visited
      (nodesOf index scope role.isStatic name) (members index role depth name scope visited) := by
  induction depth generalizing name scope visited with
  | zero => omega
  | succ depth ih =>
    have hle : unvisited index visited ≤ depth := by omega
    rw [members_eq]
    -- a parent is visited before it is entered, so one level down fewer containers are unvisited
    refine ofDecls_gathers hscope (fun parent v hi hlt => ?_) hle
    have hparent : parent ≠ "" := fun he => by simp [he, hnamed] at hi
    exact moved_gathers hscope hparent (ih parent (role.scope_ne_empty hparent) hlt)

/-- A search adds exactly what its targets reach without a visited interface on the way. -/
theorem Adds.mem_iff_outside {index : Index} {targets visited fresh : List String}
    (h : Adds index targets visited fresh) (n : String) :
    n ∈ fresh ↔ ∃ t ∈ targets, t ∉ visited ∧
      Relation.ReflTransGen (index.ExtendsOutside visited) t n := by
  constructor
  · exact h.reached n
  · rintro ⟨t, ht, hv, hr⟩
    induction hr with
    | refl => exact (List.mem_append.mp (h.covers t ht)).resolve_right hv
    | tail _ hstep ih => exact (List.mem_append.mp (h.closed _ ih _ hstep.1)).resolve_right hstep.2

theorem Adds.mem_iff {index : Index} {targets names : List String}
    (h : Adds index targets [] names) (n : String) :
    n ∈ names ↔ ∃ t ∈ targets, index.Reaches t n := by
  have hfree : index.ExtendsOutside [] = index.Extends := by
    funext child parent
    simp [Index.ExtendsOutside]
  rw [h.mem_iff_outside, hfree]
  simp [Index.Reaches]

end Heritage

namespace Setting

/-- The interfaces that bring members to an interface: those it reaches, and those that `Object`
reaches where `Object` is added. -/
def Brings (s : Setting) (interface name : String) : Prop :=
  s.index.Reaches interface name ∨
    (s.options.objectHeritage = true ∧ interface ≠ objectName ∧ interface ≠ objectConstructorName ∧
      s.index.hasInterface objectName = true ∧ s.index.Reaches objectName name)

theorem takesObject_iff (s : Setting) (interface : String) :
    s.takesObject interface = true ↔ s.options.objectHeritage = true ∧ interface ≠ objectName ∧
      interface ≠ objectConstructorName ∧ s.index.hasInterface objectName = true := by
  simp [takesObject, and_assoc]

/-- The nodes of an interface, up to their order: those of every interface it brings, once each. -/
theorem interfaceNodes_perm (s : Setting) (hnamed : s.index.hasInterface "" = false)
    (interface : String) (role : Role) {binding : String} (hb : binding ≠ "") :
    ∃ (nodes : List Node) (names : List String),
      s.interfaceNodes interface role binding = .ok nodes ∧ names.Nodup ∧
      (∀ n, n ∈ names ↔ s.Brings interface n) ∧
      nodes.Perm (names.flatMap
        (Heritage.nodesOf s.index (role.scope binding) role.isStatic)) := by
  have hscope := role.scope_ne_empty hb
  obtain ⟨own, fresh, hown, hperm, hadds⟩ := Heritage.members_gathers hnamed role interface hscope
    (Heritage.unvisited_lt_depthFor s.index [interface])
  have hfirst := Heritage.Adds.expanded List.not_mem_nil hadds
  by_cases hobject : s.takesObject interface = true ∧ objectName ∉ fresh ++ [interface]
  · obtain ⟨htakes, hnew⟩ := hobject
    obtain ⟨object, fresh', hinh, hperm', hadds'⟩ :=
      Heritage.moved_gathers hscope (by decide) (Heritage.members_gathers hnamed role objectName
        (role.scope_ne_empty (by decide)) (Heritage.unvisited_lt_depthFor s.index
          (objectName :: (fresh ++ [interface]))))
    have hsecond := Heritage.Adds.expanded hnew hadds'
    have hboth := hfirst.append (by simpa using hsecond)
    refine ⟨own ++ object, _, ?_, hboth.nodup, ?_, ?_⟩
    · simp [interfaceNodes, hown, htakes, hnew, Heritage.inherited, hinh, bind, Except.bind, pure,
        Except.pure]
    · intro n
      rw [hboth.mem_iff n, Brings]
      simp [(s.takesObject_iff interface).mp htakes]
    · refine (hperm.append hperm').trans ?_
      simp only [List.flatMap_append, List.flatMap_singleton]
      exact (List.perm_append_comm.append List.perm_append_comm).trans List.perm_append_comm
  · refine ⟨own, _, ?_, hfirst.nodup, ?_, ?_⟩
    · have hskip : (s.takesObject interface &&
          decide (objectName ∉ fresh ++ [interface])) = false := by
        simpa using hobject
      simp only [interfaceNodes, hown, bind, Except.bind, hskip]
      rfl
    · intro n
      rw [hfirst.mem_iff n, Brings]
      constructor
      · rintro ⟨t, ht, hr⟩
        exact .inl (List.mem_singleton.mp ht ▸ hr)
      · rintro (hr | ⟨hon, hne, hne', hi, hr⟩)
        · exact ⟨interface, List.mem_singleton_self _, hr⟩
        · -- `Object` was met on the way, so what it reaches is reached already
          have htakes := (s.takesObject_iff interface).mpr ⟨hon, hne, hne', hi⟩
          have hmet : objectName ∈ fresh ++ [interface] := by
            by_contra hnew
            exact hobject ⟨htakes, hnew⟩
          obtain ⟨t, ht, hr'⟩ := (hfirst.mem_iff objectName).mp hmet
          exact ⟨t, ht, hr'.trans hr⟩
    · refine hperm.trans ?_
      simp only [List.flatMap_append, List.flatMap_singleton]
      exact List.perm_append_comm

theorem interfaceNodes_depth (s : Setting) (interface : String) (role : Role) (binding : String)
    {depth : Nat} (h : Heritage.depthFor s.index ≤ depth) :
    s.interfaceNodes interface role binding = (do
      let scope := role.scope binding
      let (own, visited) ← Heritage.members s.index role depth interface scope [interface]
      if s.takesObject interface && objectName ∉ visited then
        let (object, _) ←
          Heritage.inherited s.index role depth scope objectName (objectName :: visited)
        return own ++ object
      else return own) := by
  have hdepth : Heritage.members s.index role depth =
      Heritage.members s.index role (Heritage.depthFor s.index) := by
    funext name scope visited
    exact Heritage.members_depth s.index role h name scope visited
  simp only [interfaceNodes, Heritage.inherited, hdepth]

theorem describeInterface_apply (s : Setting) (interface : String) (role : Role) (binding : String)
    (done : List (String × String)) :
    s.describeInterface interface role binding done =
      if (interface, binding) ∈ done then .ok ([], done)
      else (s.interfaceNodes interface role binding).map
        (fun nodes => (nodes, (interface, binding) :: done)) := by
  show (if (interface, binding) ∈ done then (pure [] : Survey (List Node)) else do
    modify (fun done => (interface, binding) :: done)
    liftM (s.interfaceNodes interface role binding)) done = _
  split_ifs
  · rfl
  · cases s.interfaceNodes interface role binding <;> rfl

end Setting

namespace Corpus

variable (corpus : Corpus)

def declarations (name : String) : List InterfaceDecl :=
  (((fileSites .stepwise corpus.files).flatMap Site.interfaces).filter
    (fun declared => declared.1 = name)).map Prod.snd

def elements (name : String) : List Member :=
  (corpus.declarations name).flatMap InterfaceDecl.members

def Extends (child parent : String) : Prop :=
  ∃ decl ∈ corpus.declarations child, ∃ base ∈ decl.bases, ∃ text,
    base.entityText = some text ∧ corpus.Means text (Name.parent child) parent

def Reaches : String → String → Prop := Relation.ReflTransGen corpus.Extends

/-- The interfaces that bring members to an interface: those it reaches, and those that `Object`
reaches where `Object` is added. -/
def Brings (options : Options) (interface name : String) : Prop :=
  corpus.Reaches interface name ∨
    (options.objectHeritage = true ∧ interface ≠ objectName ∧ interface ≠ objectConstructorName ∧
      corpus.DeclaresInterface objectName ∧ corpus.Reaches objectName name)

theorem interfaces_eq (name : String) : corpus.index.interfaces name = corpus.declarations name :=
  corpus.index_isOf.interfaces name

theorem elements_eq : corpus.index.elements = corpus.elements := by
  funext name
  rw [Index.elements, interfaces_eq, elements]

theorem extends_eq : corpus.index.Extends = corpus.Extends := by
  funext child parent
  simp only [Index.Extends, Extends, interfaces_eq, lookup_eq_some_iff]

theorem reaches_eq : corpus.index.Reaches = corpus.Reaches := by
  unfold Index.Reaches Reaches
  rw [extends_eq]

theorem brings_iff (options : Options) (interface name : String) :
    (corpus.setting options).Brings interface name ↔ corpus.Brings options interface name := by
  simp only [Setting.Brings, Brings, filedIndex_toIndex, reaches_eq, hasInterface_iff]

end Corpus

/-- The first time an interface is described for a variable, it yields one node for every member of
every declaration of every interface it brings, and the search never runs out of depth. -/
theorem describeInterface_heritage (corpus : Corpus) (options : Options) (interface : String)
    (role : Role) (binding : String) (hb : binding ≠ "") (done : List (String × String))
    (hfirst : (interface, binding) ∉ done) :
    (∀ depth ≥ Heritage.depthFor corpus.index, ∀ name scope visited,
      Heritage.members corpus.filedIndex role depth name scope visited =
        Heritage.members corpus.filedIndex role (Heritage.depthFor corpus.index) name scope
          visited) ∧
    (∀ depth name scope visited,
      Heritage.members corpus.filedIndex role depth name scope visited = .error .tooDeep ∨
      Heritage.members corpus.filedIndex role depth name scope visited =
        Heritage.members corpus.filedIndex role (Heritage.depthFor corpus.index) name scope
          visited) ∧
    (∀ name scope visited, Heritage.members corpus.filedIndex role
      (Heritage.depthFor corpus.index) name scope visited ≠ .error .tooDeep) ∧
    ∃ (nodes : List Node) (names : List String),
      (corpus.setting options).describeInterface interface role binding done =
        .ok (nodes, (interface, binding) :: done) ∧
      names.Nodup ∧
      (∀ n, n ∈ names ↔ corpus.Brings options interface n) ∧
      (nodes.map Except.ok).Perm ((names.flatMap corpus.elements).map
        (Member.resolve (role.scope binding) role.isStatic)) := by
  refine ⟨fun depth hd => Heritage.members_depth corpus.filedIndex role hd,
    Heritage.members_refines corpus.filedIndex role, fun name scope visited =>
    Heritage.members_ne_tooDeep corpus.filedIndex role name scope
      (Heritage.unvisited_lt_depthFor corpus.index visited), ?_⟩
  obtain ⟨nodes, names, hnodes, hnodup, hmem, hperm⟩ :=
    (corpus.setting options).interfaceNodes_perm corpus.hasInterface_empty interface role hb
  refine ⟨nodes, names, ?_, hnodup, fun n => (hmem n).trans (corpus.brings_iff options _ n), ?_⟩
  · rw [Setting.describeInterface_apply, if_neg hfirst, hnodes]
    rfl
  · have hresolve : Member.resolve (role.scope binding) role.isStatic =
        fun member => .ok (member.node (role.scope binding) role.isStatic) :=
      funext (Member.resolve_ok (role.scope_ne_empty hb) role.isStatic)
    simpa [List.map_flatMap, Heritage.nodesOf, Function.comp_def, hresolve,
      corpus.elements_eq] using
      hperm.map (fun node => (Except.ok node : Except MemberError Node))

def mapTypes : SourceFile :=
  { id := 0
    specifier := "file:///types.d.ts"
    mediaType := .dts
    items := [
      .mk ⟨1, 1⟩ (.plain (.interfaceDecl ⟨"Map", [.ident "Sized"],
        [.method (.ident "clear") false (.mk [] [] none)]⟩)),
      .mk ⟨2, 1⟩ (.plain (.interfaceDecl ⟨"Sized", [.ident "Map"],
        [.property (.ident "size") false true (some (.keyword .number))]⟩)),
      .mk ⟨3, 1⟩ (.plain (.interfaceDecl ⟨"Map", [],
        [.method (.ident "keys") false (.mk [] [] none)]⟩)),
      .mk ⟨4, 1⟩ (.plain (.interfaceDecl ⟨"Object", [],
        [.method (.ident "valueOf") false (.mk [] [] none)]⟩))]
    named := by decide }

def mapGlobals : SourceFile :=
  { id := 0
    specifier := "file:///globals.d.ts"
    mediaType := .dts
    items := [
      .mk ⟨1, 1⟩ (.plain (.variableDecl ⟨false, true,
        [.ident "Map" (some (.reference (.ident "MapConstructor") []))]⟩)),
      .mk ⟨2, 1⟩ (.plain (.interfaceDecl ⟨"MapConstructor", [],
        [.construct (.mk [] [] (some (.reference (.ident "Map") []))),
          .method (.ident "groupBy") false (.mk [] [] none)]⟩))]
    named := by decide }

def mapCorpus : Corpus := Corpus.ofFiles [mapTypes, mapGlobals]

theorem mapCorpus_brings (n : String) :
    mapCorpus.Brings {} "Map" n ↔ n ∈ ["Map", "Sized", "Object"] := by
  have hbases : ∀ child parents, mapCorpus.index.parents child = parents →
      ∀ parent, mapCorpus.Extends child parent ↔ parent ∈ parents := by
    rintro child _ rfl parent
    rw [← mapCorpus.extends_eq, Index.mem_parents]
  have hmap := hbases "Map" ["Sized"] (by decide +kernel)
  have hsized := hbases "Sized" ["Map"] (by decide +kernel)
  have hobject := hbases "Object" [] (by decide +kernel)
  constructor
  · have hclosed : ∀ start ∈ ["Map", "Sized", "Object"], mapCorpus.Reaches start n →
        n ∈ ["Map", "Sized", "Object"] := by
      intro start hstart hreach
      induction hreach with
      | refl => exact hstart
      | tail _ hstep ih =>
        simp only [List.mem_cons, List.not_mem_nil, or_false] at ih ⊢
        rcases ih with rfl | rfl | rfl
        · exact .inr (.inl (List.mem_singleton.mp ((hmap _).mp hstep)))
        · exact .inl (List.mem_singleton.mp ((hsized _).mp hstep))
        · exact absurd ((hobject _).mp hstep) List.not_mem_nil
    rintro (hreach | ⟨-, -, -, -, hreach⟩)
    · exact hclosed "Map" (by decide) hreach
    · exact hclosed "Object" (by decide) hreach
  · intro hn
    have hdeclared : mapCorpus.DeclaresInterface objectName :=
      (mapCorpus.hasInterface_iff objectName).mp (by decide +kernel)
    simp only [List.mem_cons, List.not_mem_nil, or_false] at hn
    rcases hn with rfl | rfl | rfl
    · exact .inl .refl
    · exact .inl (.single ((hmap _).mpr (List.mem_singleton_self _)))
    · exact .inr ⟨rfl, by decide, by decide, hdeclared, .refl⟩

/-- The cycle is gone through once, and `Object` is added. -/
theorem describeInterface_heritage_cycle :
    ∃ nodes, (mapCorpus.setting {}).describeInterface "Map" .instanceSide "Map" [] =
        .ok (nodes, [("Map", "Map")]) ∧
      (nodes.map Except.ok).Perm ((["Map", "Sized", "Object"].flatMap mapCorpus.elements).map
        (Member.resolve "Map.prototype" false)) := by
  obtain ⟨-, -, -, nodes, names, hnodes, hnodup, hmem, hperm⟩ :=
    describeInterface_heritage mapCorpus {} "Map" .instanceSide "Map" (by decide) []
      List.not_mem_nil
  have hnames : names.Perm ["Map", "Sized", "Object"] :=
    (List.perm_ext_iff_of_nodup hnodup (by decide)).mpr
      fun n => (hmem n).trans (mapCorpus_brings n)
  exact ⟨nodes, hnodes, hperm.trans ((hnames.flatMap_right _).map _)⟩

end AmbientCatalog
