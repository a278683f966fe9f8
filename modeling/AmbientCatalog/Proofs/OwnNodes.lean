import AmbientCatalog.Proofs.FirstSaves
import AmbientCatalog.Proofs.Ownership
import AmbientCatalog.Proofs.Recording

/-!
# Nodes of one kind

The nodes of functions, variables and namespaces have kinds of their own, which no member of an
interface has and nothing else that a statement gives. So the nodes of such a kind can be followed
through a survey and a registry by themselves: a run keeps them in the order of the statements that
give them, and a registry keeps of each record the first one, whatever else is saved in between.
-/

set_option autoImplicit false

namespace AmbientCatalog

def Kind.isOwn : Kind → Bool
  | .functionDeclaration => true
  | .variableDeclaration => true
  | .moduleDeclaration => true
  | _ => false

theorem Kind.text_injective {kind kind' : Kind} (h : kind.text = kind'.text) : kind = kind' := by
  have hread := congrArg Kind.ofText? h
  rw [Kind.ofText?_text, Kind.ofText?_text] at hread
  exact Option.some.inj hread

theorem Node.kind_eq_of_record {node other : Node} (h : node.record = other.record) :
    node.kind = other.kind := by
  have hkind : ∀ node : Node, node.record.kind = node.kind.text := by
    intro node
    cases node
    rfl
  exact Kind.text_injective ((hkind node).symm.trans ((congrArg Record.kind h).trans (hkind other)))

namespace Registry

section Filter

variable {keep : Node → Bool}
  (hkeep : ∀ node other : Node, node.record = other.record → keep node = keep other)

include hkeep

/-- Of the nodes that are picked by their record, those that come first are picked among the first.
-/
theorem filter_eraseDupsBy (nodes : List Node) :
    (nodes.eraseDupsBy sameRecord).filter keep = (nodes.filter keep).eraseDupsBy sameRecord := by
  induction nodes using List.reverseRecOn with
  | nil => rfl
  | append_singleton nodes node ih =>
    rw [eraseDupsBy_concat, List.filter_append, List.filter_append, ih]
    cases hnode : keep node with
    | false =>
      rw [List.filter_cons_of_neg (by simp [hnode])]
      split_ifs <;> simp [hnode]
    | true =>
      have hmem : node.record ∈ (nodes.filter keep).map Node.record ↔
          node.record ∈ nodes.map Node.record := by
        simp only [List.mem_map, List.mem_filter]
        constructor
        · rintro ⟨other, ⟨hother, -⟩, heq⟩
          exact ⟨other, hother, heq⟩
        · rintro ⟨other, hother, heq⟩
          exact ⟨other, ⟨hother, (hkeep other node heq).trans hnode⟩, heq⟩
      rw [List.filter_cons_of_pos hnode, List.filter_nil, eraseDupsBy_concat]
      simp only [hmem]
      split_ifs <;> simp [hnode]

theorem filter_firstOverloads (nodes : List Node) (name : String) :
    (firstOverloads nodes name).filter keep = firstOverloads (nodes.filter keep) name := by
  rw [firstOverloads, filter_eraseDupsBy hkeep, firstOverloads, List.filter_filter,
    List.filter_filter]
  exact congrArg (List.eraseDupsBy sameRecord ·)
    (List.filter_congr fun node _ => Bool.and_comm _ _)

end Filter

end Registry

def Node.IsMember (node : Node) : Prop :=
  ∃ scope isStatic, ∃ member : Member, node = member.node scope isStatic

theorem Node.IsMember.isOwn {node : Node} (h : node.IsMember) : node.kind.isOwn = false := by
  obtain ⟨scope, isStatic, member, rfl⟩ := h
  have hkind : ∀ node : Node, (if isStatic then node.tagged .isStatic else node).kind =
      node.kind := by
    intro node
    cases isStatic <;> rfl
  rw [Member.node, ← apply_ite (fun node : Node => node), hkind]
  cases member with
  | call signature =>
    obtain ⟨generics, params, result⟩ := signature
    by_cases hscope : scope = ""
    · subst hscope
      rfl
    · simp only [described, Member.describe, if_neg hscope]
      rfl
  | method key isOptional signature =>
    obtain ⟨generics, params, result⟩ := signature
    rfl
  | construct signature =>
    obtain ⟨generics, params, result⟩ := signature
    rfl
  | _ => rfl

namespace Setting

/-- A step gives its own nodes, or it asks for an interface and gives nodes of members. -/
theorem perform_given (s : Setting) (hnamed : s.index.hasInterface "" = false) {step : Step}
    (hstep : step.Named) {done done' : List (String × String)} {nodes : List Node}
    (h : s.perform step done = .ok (nodes, done')) :
    (nodes = step.fixed ∧ done' = done) ∨ (step.fixed = [] ∧ ∀ node ∈ nodes, node.IsMember) := by
  cases step with
  | node emitted =>
    cases h
    exact .inl ⟨rfl, rfl⟩
  | inline binding members =>
    rw [perform, Member.mapM_resolve_ok hstep] at h
    cases h
    exact .inl ⟨rfl, rfl⟩
  | request interface role binding =>
    obtain ⟨found, hfound, hmem⟩ := s.mem_interfaceNodes hnamed interface role hstep
    rw [perform, describeInterface_apply, hfound] at h
    refine .inr ⟨rfl, fun node hnode => ?_⟩
    split_ifs at h
    · cases h
      exact absurd hnode List.not_mem_nil
    · cases h
      obtain ⟨_, -, member, -, rfl⟩ := (hmem node).mp hnode
      exact ⟨_, _, member, rfl⟩

theorem fixed_isMember {step : Step} (h : ∀ emitted, step ≠ .node emitted) :
    ∀ node ∈ step.fixed, node.IsMember := by
  intro node hnode
  cases step with
  | node emitted => exact absurd rfl (h emitted)
  | inline binding members =>
    obtain ⟨member, -, rfl⟩ := List.mem_map.mp hnode
    exact ⟨binding, true, member, rfl⟩
  | request interface role binding => exact absurd hnode List.not_mem_nil

section Run

variable {s : Setting} (hnamed : s.index.hasInterface "" = false) {keep : Node → Bool}
  {steps : List Step} (hsteps : ∀ step ∈ steps, step.Named) {done done' : List (String × String)}
  {nodes : List Node}

include hnamed hsteps

/-- Of nodes that are no members, a run yields those of the steps themselves, in their order. -/
theorem performAll_own (hkeep : ∀ node : Node, node.IsMember → keep node = false)
    (h : s.performAll steps done = .ok (nodes, done')) :
    nodes.filter keep = (steps.flatMap Step.fixed).filter keep := by
  induction steps generalizing done nodes with
  | nil =>
    cases h
    rfl
  | cons step steps ih =>
    obtain ⟨first, middle, others, hf, ho, rfl⟩ := s.performAll_cons_ok h
    have hrest := ih (fun later hlater => hsteps later (List.mem_cons_of_mem _ hlater)) ho
    have hfirst : first.filter keep = step.fixed.filter keep := by
      rcases s.perform_given hnamed (hsteps step List.mem_cons_self) hf with
        ⟨rfl, -⟩ | ⟨hnone, hmembers⟩
      · rfl
      · rw [hnone, List.filter_nil, List.filter_eq_nil_iff]
        intro node hnode
        simp [hkeep node (hmembers node hnode)]
    rw [List.filter_append, List.flatMap_cons, List.filter_append, hfirst, hrest]

/-- Where all members are kept, a run without the steps whose nodes are not kept yields the nodes
that are kept. -/
theorem performAll_filter (hkeep : ∀ node : Node, node.IsMember → keep node = true)
    (h : s.performAll steps done = .ok (nodes, done')) :
    s.performAll (steps.filter (fun step => step.fixed.all keep)) done =
      .ok (nodes.filter keep, done') := by
  induction steps generalizing done nodes with
  | nil =>
    cases h
    rfl
  | cons step steps ih =>
    obtain ⟨first, middle, others, hf, ho, rfl⟩ := s.performAll_cons_ok h
    have hrest := ih (fun later hlater => hsteps later (List.mem_cons_of_mem _ hlater)) ho
    rw [List.filter_append, List.filter_cons]
    split_ifs with hall
    · have hfirst : first.filter keep = first := by
        rw [List.filter_eq_self]
        rcases s.perform_given hnamed (hsteps step List.mem_cons_self) hf with
          ⟨rfl, -⟩ | ⟨-, hmembers⟩
        · exact List.all_eq_true.mp hall
        · exact fun node hnode => hkeep node (hmembers node hnode)
      rw [hfirst]
      exact s.performAll_cons_of_ok hf hrest
    · -- only a step that emits a single node can be left out
      obtain ⟨emitted, rfl⟩ : ∃ emitted, step = .node emitted := by
        by_contra hother
        refine hall (List.all_eq_true.mpr fun node hnode => hkeep node ?_)
        exact fixed_isMember (fun emitted heq => hother ⟨emitted, heq⟩) node hnode
      cases hf
      have hdrop : keep emitted = false := by simpa [Step.fixed] using hall
      rw [List.filter_cons_of_neg (by simp [hdrop]), List.filter_nil, List.nil_append]
      exact hrest

end Run

end Setting

theorem ClassMember.isOwn {member : ClassMember} {className : String} {node : Node}
    (h : member.node? className = some node) : node.kind.isOwn = false := by
  cases member with
  | constructor access params =>
    obtain rfl := Option.some.inj h
    rfl
  | method form key flags signature =>
    obtain rfl := Option.some.inj h
    rw [(Signature.described_id _ signature).2.2]
    cases form <;> rfl
  | property key flags type =>
    obtain rfl := Option.some.inj h
    rfl
  | index isReadonly isStatic params type =>
    obtain rfl := Option.some.inj h
    rfl
  | silent => simp [ClassMember.node?] at h

def Site.ownKind? (site : Site) : Option Kind :=
  match site.decl? with
  | some (.functionDecl _) => some .functionDeclaration
  | some (.variableDecl _) => some .variableDeclaration
  | some (.namespaceDecl _ _ _) => some .moduleDeclaration
  | _ => none

theorem Site.States.ownKind {site : Site} {node : Node} (h : site.States node)
    (hown : node.kind.isOwn = true) : site.ownKind? = some node.kind := by
  have hnone : node.kind.isOwn = false → site.ownKind? = some node.kind :=
    fun hother => absurd (hother.symm.trans hown) (by simp)
  cases h with
  | @ofFunction decl h =>
    rw [ownKind?, h, Setting.functionNode, (Signature.described_id _ decl.signature).2.2]
  | ofVariable h hd =>
    rw [ownKind?, h]
    rfl
  | @ofInline decl name members member h hd hm =>
    exact hnone (Node.IsMember.isOwn ⟨_, true, member, rfl⟩)
  | @ofClass decl node h hn =>
    rcases List.mem_cons.mp hn with rfl | hmember
    · exact hnone rfl
    · obtain ⟨member, -, hnode⟩ := List.mem_filterMap.mp hmember
      exact hnone (ClassMember.isOwn hnode)
  | ofNamespace h hn =>
    rw [ownKind?, h]
    rfl

theorem flatMap_fixed_node (nodes : List Node) :
    (nodes.map Step.node).flatMap Step.fixed = nodes := by
  induction nodes with
  | nil => rfl
  | cons node nodes ih => exact congrArg (node :: ·) ih

namespace Setting

def ownNodes (s : Setting) (kind : Kind) (site : Site) : List Node :=
  ((s.stepsAt site).flatMap Step.fixed).filter (fun node => node.kind = kind)

theorem ownKind_of_fixed (s : Setting) {site : Site} {step : Step} (hstep : step ∈ s.stepsAt site)
    {node : Node} (hnode : node ∈ step.fixed) (hown : node.kind.isOwn = true) :
    site.ownKind? = some node.kind := by
  rcases s.fixed_given hstep hnode with hstates | ⟨name, rfl⟩
  · exact hstates.ownKind hown
  · simp [Node.placeholder, Kind.isOwn] at hown

theorem ownNodes_eq_nil (s : Setting) {kind : Kind} (hown : kind.isOwn = true) {site : Site}
    (h : site.ownKind? ≠ some kind) : s.ownNodes kind site = [] := by
  rw [ownNodes, List.filter_eq_nil_iff]
  intro node hnode hkind
  obtain ⟨step, hstep, hfixed⟩ := List.mem_flatMap.mp hnode
  obtain rfl := of_decide_eq_true hkind
  exact h (s.ownKind_of_fixed hstep hfixed hown)

end Setting

namespace Catalog

/-- The overloads of one own kind come from the statements: they are the nodes of that kind and name
that the sites hold, each record where it comes first. -/
theorem overloads_ofKind {corpus : Corpus} {options : Options} {catalog : Catalog}
    (hbuild : build corpus options = .ok catalog) {kind : Kind} (hown : kind.isOwn = true)
    {name : String} (hplain : ¬Node.placeholderId.toList <+: name.toList) :
    (catalog.registry.overloads name).filter (fun node => node.kind = kind) =
      (((fileSites .stepwise corpus.files).flatMap
        ((corpus.setting options).ownNodes kind)).filter
          (fun node => node.id = name)).eraseDupsBy Registry.sameRecord := by
  have hindex : (corpus.setting options).index.IsOf (fileSites .stepwise corpus.files) :=
    corpus.index_isOf
  obtain ⟨nodes, done, hrun, hbuilt, -⟩ := build_run corpus options
  obtain rfl := Except.ok.inj (hbuilt.symm.trans hbuild)
  have hrecord : ∀ node other : Node, node.record = other.record →
      decide (node.kind = kind) = decide (other.kind = kind) :=
    fun node other heq => by rw [Node.kind_eq_of_record heq]
  have hmember : ∀ node : Node, node.IsMember → decide (node.kind = kind) = false := by
    intro node hnode
    refine decide_eq_false fun hkind => ?_
    exact absurd (hnode.isOwn.symm.trans (hkind ▸ hown)) (by simp)
  have hnodes := Setting.performAll_own corpus.hasInterface_empty
    (Setting.stepsAt_named hindex (wellNamed_fileSites corpus.files)) hmember hrun
  have hsites : ((fileSites .stepwise corpus.files).flatMap
      (corpus.setting options).stepsAt).flatMap Step.fixed =
      (fileSites .stepwise corpus.files).flatMap
        (fun site => ((corpus.setting options).stepsAt site).flatMap Step.fixed) :=
    List.flatMap_assoc
  rw [Registry.overloads_saveAll, Registry.filter_firstOverloads hrecord, hnodes, hsites,
    List.filter_flatMap, Registry.firstOverloads]
  refine congrArg (List.eraseDupsBy Registry.sameRecord ·) (List.filter_congr fun node _ => ?_)
  by_cases hid : node.id = name
  · have hholder : node.isPlaceholder = false := by
      rw [Node.isPlaceholder, hid, ← Bool.not_eq_true]
      exact fun hp => hplain (List.isPrefixOf_iff_prefix.mp hp)
    simp [hid, hholder]
  · simp [hid]

end Catalog

end AmbientCatalog
