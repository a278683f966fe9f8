import AmbientCatalog.Heritage
import Mathlib.Data.List.Basic
import Mathlib.Data.Nat.Init

/-!
# Inheritance ends

The search through the bases of an interface is bounded by a depth, and running out of it is an
error. Every interface is visited before it is expanded and a visited one is not expanded again, so
with more depth than there are unvisited containers the error never comes, and an answer without the
error is the same at every greater depth. This holds for every index, also for those in which
descriptions fail.
-/

set_option autoImplicit false

namespace AmbientCatalog

@[simp] theorem ok_bind {ε α β : Type} (a : α) (f : α → Except ε β) :
    (Except.ok a >>= f) = f a := rfl

theorem bind_eq_ok {ε α β : Type} {x : Except ε α} {f : α → Except ε β} {b : β}
    (h : (x >>= f) = .ok b) : ∃ a, x = .ok a ∧ f a = .ok b := by
  cases x with
  | error e => cases h
  | ok a => exact ⟨a, rfl, h⟩

theorem bind_ne_error {ε α β : Type} {x : Except ε α} {f : α → Except ε β} {e : ε}
    (hx : x ≠ .error e) (hf : ∀ a, x = .ok a → f a ≠ .error e) : (x >>= f) ≠ .error e := by
  cases x with
  | error other => exact fun h => hx (congrArg Except.error (Except.error.inj h))
  | ok a => exact hf a rfl

theorem mapM_ne_error {ε α β : Type} {f : α → Except ε β} {e : ε} (hf : ∀ a, f a ≠ .error e)
    (l : List α) : l.mapM f ≠ .error e := by
  induction l with
  | nil => nofun
  | cons a l ih =>
    rw [List.mapM_cons]
    exact bind_ne_error (hf a) fun _ _ => bind_ne_error ih fun _ _ => nofun

theorem Index.hasInterface_of_lookup {index : Index} {name scope found : String}
    (h : index.lookup name scope = some found) : index.hasInterface found = true :=
  List.find?_some h

theorem Member.resolve_ne_tooDeep (scope : String) (isStatic : Bool) (member : Member) :
    member.resolve scope isStatic ≠ .error .tooDeep := by
  have hneeds : member.needsScope ≠ some .tooDeep := by cases member <;> simp [needsScope]
  rw [resolve]
  split
  · next e he =>
    rintro ⟨⟩
    split_ifs at he
    exact hneeds he
  · nofun

/-- The file of every declaration is there, so none is passed over. -/
theorem FiledIndex.declared_eq (index : FiledIndex) (name : String) :
    index.declared name = index.interfaces name := by
  rw [declared, Index.interfaces, ← List.filterMap_eq_map]
  apply List.filterMap_congr
  intro stored hstored
  obtain ⟨entry, hentry, hread⟩ := List.mem_filterMap.mp hstored
  obtain ⟨decl, -, rfl⟩ := Option.map_eq_some_iff.mp hread
  have hfile : entry.file < index.corpus.files.length :=
    index.filed entry (List.mem_filter.mp hentry).1
  simp [Corpus.file?, List.getElem?_eq_getElem hfile]

namespace Heritage

theorem hasInterface_of_baseName {index : Index} {scope : String} {base : Expr} {parent : String}
    (h : baseName? index scope base = some parent) : index.hasInterface parent = true := by
  obtain ⟨name, -, hname⟩ := Option.bind_eq_some_iff.mp h
  exact Index.hasInterface_of_lookup hname

def unvisited (index : Index) (visited : List String) : Nat :=
  (index.containers.filter (fun entry => entry.name ∉ visited)).length

theorem unvisited_lt_depthFor (index : Index) (visited : List String) :
    unvisited index visited < depthFor index :=
  Nat.lt_succ_of_le (List.length_filter_le _ _)

theorem unvisited_antitone (index : Index) {visited visited' : List String}
    (h : visited ⊆ visited') : unvisited index visited' ≤ unvisited index visited := by
  unfold unvisited
  rw [← List.countP_eq_length_filter, ← List.countP_eq_length_filter]
  apply List.countP_mono_left
  intro entry _ hentry
  have hnot : entry.name ∉ visited' := by simpa using hentry
  simpa using fun hin => hnot (h hin)

theorem exists_container {index : Index} {name : String} (h : index.hasInterface name = true) :
    ∃ entry ∈ index.containers, entry.name = name := by
  unfold Index.hasInterface Index.interfaces Index.interfaceEntries Index.containersOf at h
  cases hf : index.containers.filter (fun entry => entry.name = name) with
  | nil => simp [hf] at h
  | cons entry rest =>
    have hmem : entry ∈ index.containers.filter (fun entry => entry.name = name) := by simp [hf]
    exact ⟨entry, List.mem_of_mem_filter hmem, by simpa using List.of_mem_filter hmem⟩

theorem unvisited_cons_lt {index : Index} {name : String} {visited : List String}
    (hi : index.hasInterface name = true) (hv : name ∉ visited) :
    unvisited index (name :: visited) < unvisited index visited := by
  obtain ⟨entry, hentry, rfl⟩ := exists_container hi
  have hsplit : index.containers.filter (fun e => e.name ∉ entry.name :: visited) =
      (index.containers.filter (fun e => e.name ∉ visited)).filter
        (fun e => e.name ≠ entry.name) := by
    rw [List.filter_filter]
    apply List.filter_congr
    intro e _
    simp
  unfold unvisited
  rw [hsplit]
  exact List.length_filter_lt_length_iff_exists.mpr
    ⟨entry, List.mem_filter.mpr ⟨hentry, by simpa using hv⟩, by simp⟩

section Growth

variable {index : Index} {scope : String}
  {describe : Member → Except MemberError Node}
  {expand expand' : String → List String → Except MemberError Gathered}

def Grows (expand : String → List String → Except MemberError Gathered) : Prop :=
  ∀ name visited nodes visited', expand name visited = .ok (nodes, visited') → visited ⊆ visited'

theorem ofBases_grows (hg : Grows expand) {bases : List Expr} {visited visited' : List String}
    {nodes : List Node} (h : ofBases index scope expand bases visited = .ok (nodes, visited')) :
    visited ⊆ visited' := by
  induction bases generalizing visited nodes with
  | nil =>
    cases h
    exact List.Subset.refl _
  | cons base bases ih =>
    rw [ofBases] at h
    split at h
    · exact ih h
    · split_ifs at h
      · exact ih h
      · obtain ⟨⟨inherited, middle⟩, he, h⟩ := bind_eq_ok h
        obtain ⟨⟨others, last⟩, ho, h⟩ := bind_eq_ok h
        cases h
        have hfirst := List.Subset.trans (List.subset_cons_self _ _) (hg _ _ _ _ he)
        exact List.Subset.trans hfirst (ih ho)

theorem ofDecls_grows (hg : Grows expand) {decls : List InterfaceDecl}
    {visited visited' : List String} {nodes : List Node}
    (h : ofDecls index scope describe expand decls visited = .ok (nodes, visited')) :
    visited ⊆ visited' := by
  induction decls generalizing visited nodes with
  | nil =>
    cases h
    exact List.Subset.refl _
  | cons decl decls ih =>
    obtain ⟨own, -, h⟩ := bind_eq_ok h
    obtain ⟨⟨inherited, middle⟩, hb, h⟩ := bind_eq_ok h
    obtain ⟨⟨others, last⟩, hd, h⟩ := bind_eq_ok h
    cases h
    exact List.Subset.trans (ofBases_grows hg hb) (ih hd)

theorem ofBases_congr (hg : Grows expand) {bases : List Expr} {visited : List String}
    (h : ∀ parent v, visited ⊆ v → parent ∉ v → index.hasInterface parent = true →
      expand parent (parent :: v) = expand' parent (parent :: v)) :
    ofBases index scope expand bases visited = ofBases index scope expand' bases visited := by
  induction bases generalizing visited with
  | nil => rfl
  | cons base bases ih =>
    rw [ofBases, ofBases]
    split
    · exact ih h
    · next parent hparent =>
      split_ifs with hv
      · exact ih h
      · rw [← h parent visited (List.Subset.refl _) hv (hasInterface_of_baseName hparent)]
        cases he : expand parent (parent :: visited) with
        | error e => rfl
        | ok gathered =>
          obtain ⟨inherited, middle⟩ := gathered
          have hsub : visited ⊆ middle :=
            List.Subset.trans (List.subset_cons_self _ _) (hg _ _ _ _ he)
          have hrest := ih (fun p v hsv hp hi => h p v (List.Subset.trans hsub hsv) hp hi)
          show (ofBases index scope expand bases middle >>= _) = _
          rw [hrest]
          rfl

theorem ofDecls_congr (hg : Grows expand) {decls : List InterfaceDecl} {visited : List String}
    (h : ∀ parent v, visited ⊆ v → parent ∉ v → index.hasInterface parent = true →
      expand parent (parent :: v) = expand' parent (parent :: v)) :
    ofDecls index scope describe expand decls visited =
      ofDecls index scope describe expand' decls visited := by
  induction decls generalizing visited with
  | nil => rfl
  | cons decl decls ih =>
    rw [ofDecls, ofDecls, ← ofBases_congr hg h]
    cases hb : ofBases index scope expand decl.bases visited with
    | error e => rfl
    | ok gathered =>
      obtain ⟨inherited, middle⟩ := gathered
      have hsub : visited ⊆ middle := ofBases_grows hg hb
      have hrest := ih (fun p v hsv hp hi => h p v (List.Subset.trans hsub hsv) hp hi)
      cases decl.members.mapM describe with
      | error e => rfl
      | ok own =>
        show (ofDecls index scope describe expand decls middle >>= _) = _
        rw [hrest]
        rfl

theorem ofBases_ne_tooDeep (hg : Grows expand) {bases : List Expr} {visited : List String}
    (h : ∀ parent v, visited ⊆ v → parent ∉ v → index.hasInterface parent = true →
      expand parent (parent :: v) ≠ .error .tooDeep) :
    ofBases index scope expand bases visited ≠ .error .tooDeep := by
  induction bases generalizing visited with
  | nil => nofun
  | cons base bases ih =>
    rw [ofBases]
    split
    · exact ih h
    · next parent hparent =>
      split_ifs with hv
      · exact ih h
      · refine bind_ne_error (h parent visited (List.Subset.refl _) hv
          (hasInterface_of_baseName hparent)) fun ⟨inherited, middle⟩ he => ?_
        have hsub : visited ⊆ middle :=
          List.Subset.trans (List.subset_cons_self _ _) (hg _ _ _ _ he)
        have hrest := ih (fun p v hsv hp hi => h p v (List.Subset.trans hsub hsv) hp hi)
        exact bind_ne_error hrest fun _ _ => nofun

theorem ofDecls_ne_tooDeep (hg : Grows expand) (hdescribe : ∀ member,
      describe member ≠ .error .tooDeep) {decls : List InterfaceDecl} {visited : List String}
    (h : ∀ parent v, visited ⊆ v → parent ∉ v → index.hasInterface parent = true →
      expand parent (parent :: v) ≠ .error .tooDeep) :
    ofDecls index scope describe expand decls visited ≠ .error .tooDeep := by
  induction decls generalizing visited with
  | nil => nofun
  | cons decl decls ih =>
    refine bind_ne_error (mapM_ne_error hdescribe decl.members) fun own _ =>
      bind_ne_error (ofBases_ne_tooDeep hg h) fun ⟨inherited, middle⟩ hb => ?_
    have hsub : visited ⊆ middle := ofBases_grows hg hb
    have hrest := ih (fun p v hsv hp hi => h p v (List.Subset.trans hsub hsv) hp hi)
    exact bind_ne_error hrest fun _ _ => nofun

end Growth

section Depth

/-- The first result is the second one, unless the search ran out of depth. -/
def Refines {α : Type} (result final : Except MemberError α) : Prop :=
  result = .error .tooDeep ∨ result = final

variable {α β : Type} {x y z : Except MemberError α}

theorem Refines.bind {f g : α → Except MemberError β} (h : Refines x y)
    (hfg : ∀ a, Refines (f a) (g a)) : Refines (x >>= f) (y >>= g) := by
  rcases h with rfl | rfl
  · exact .inl rfl
  · cases x with
    | error e => exact .inr rfl
    | ok a => exact hfg a

variable (index : Index) (scope : String) {describe : Member → Except MemberError Node}
  {expand expand' : String → List String → Except MemberError Gathered}

theorem ofBases_refines (h : ∀ parent v, Refines (expand parent v) (expand' parent v))
    (bases : List Expr) (visited : List String) :
    Refines (ofBases index scope expand bases visited)
      (ofBases index scope expand' bases visited) := by
  induction bases generalizing visited with
  | nil => exact .inr rfl
  | cons base bases ih =>
    rw [ofBases, ofBases]
    split
    · exact ih visited
    · split_ifs
      · exact ih visited
      · exact (h _ _).bind fun gathered => (ih gathered.2).bind fun _ => .inr rfl

theorem ofDecls_refines (h : ∀ parent v, Refines (expand parent v) (expand' parent v))
    (decls : List InterfaceDecl) (visited : List String) :
    Refines (ofDecls index scope describe expand decls visited)
      (ofDecls index scope describe expand' decls visited) := by
  induction decls generalizing visited with
  | nil => exact .inr rfl
  | cons decl decls ih =>
    have hown : Refines (decl.members.mapM describe) (decl.members.mapM describe) := .inr rfl
    exact hown.bind fun _ => (ofBases_refines index scope h decl.bases visited).bind
      fun gathered => (ih gathered.2).bind fun _ => .inr rfl

end Depth

theorem moved_grows {role : Role}
    {expand : String → String → List String → Except MemberError Gathered}
    (h : ∀ scope, Grows (fun name => expand name scope)) (target : String) :
    Grows (moved role expand target) := by
  intro name visited nodes visited' hm
  obtain ⟨⟨inner, last⟩, he, hm⟩ := bind_eq_ok hm
  cases hm
  exact h _ _ _ _ _ he

theorem members_grows (index : FiledIndex) (role : Role) (depth : Nat) (scope : String) :
    Grows (fun name => members index role depth name scope) := by
  induction depth generalizing scope with
  | zero =>
    intro name visited nodes visited' h
    cases h
  | succ depth ih =>
    intro name visited nodes visited' h
    exact ofDecls_grows (moved_grows ih scope) h

theorem members_eq (index : FiledIndex) (role : Role) (depth : Nat) (name scope : String)
    (visited : List String) :
    members index role (depth + 1) name scope visited =
      ofDecls index (Name.parent name) (Member.resolve scope role.isStatic)
        (moved role (members index role depth) scope) (index.interfaces name) visited := by
  rw [members, index.declared_eq]

theorem members_refines_add (index : FiledIndex) (role : Role) (depth extra : Nat)
    (name scope : String) (visited : List String) :
    Refines (members index role depth name scope visited)
      (members index role (depth + extra) name scope visited) := by
  induction depth generalizing name scope visited with
  | zero => exact .inl rfl
  | succ depth ih =>
    rw [Nat.succ_add, members, members]
    exact ofDecls_refines _ _ (fun parent v => (ih parent (role.scope parent) v).bind
      fun _ => .inr rfl) _ _

/-- The search does not run out of depth. -/
theorem members_ne_tooDeep (index : FiledIndex) (role : Role) {depth : Nat} (name scope : String)
    {visited : List String} (h : unvisited index visited < depth) :
    members index role depth name scope visited ≠ .error .tooDeep := by
  induction depth generalizing name scope visited with
  | zero => omega
  | succ depth ih =>
    rw [members]
    refine ofDecls_ne_tooDeep (moved_grows (members_grows index role depth) scope)
      (Member.resolve_ne_tooDeep scope role.isStatic) fun parent v hsub hp hi => ?_
    -- the parent counts as visited from here on, which makes up for the level
    have hlt := unvisited_cons_lt hi hp
    have hle := unvisited_antitone index hsub
    exact bind_ne_error (ih parent (role.scope parent) (by omega)) fun _ _ => nofun

theorem members_depth (index : FiledIndex) (role : Role) {depth : Nat}
    (h : depthFor index ≤ depth) (name scope : String) (visited : List String) :
    members index role depth name scope visited =
      members index role (depthFor index) name scope visited := by
  obtain ⟨extra, rfl⟩ := Nat.exists_eq_add_of_le h
  rcases members_refines_add index role (depthFor index) extra name scope visited with hdeep | heq
  · exact absurd hdeep
      (members_ne_tooDeep index role name scope (unvisited_lt_depthFor index visited))
  · exact heq.symm

/-- A search that runs out of depth says so, and any other answer of it is the final one. -/
theorem members_refines (index : FiledIndex) (role : Role) (depth : Nat) (name scope : String)
    (visited : List String) :
    Refines (members index role depth name scope visited)
      (members index role (depthFor index) name scope visited) := by
  rcases Nat.le_total depth (depthFor index) with h | h
  · obtain ⟨extra, hextra⟩ := Nat.exists_eq_add_of_le h
    rw [hextra]
    exact members_refines_add index role depth extra name scope visited
  · exact .inr (members_depth index role h name scope visited)

end Heritage

end AmbientCatalog
