import AmbientCatalog.Proofs.Entries
import AmbientCatalog.Proofs.Shifting

/-!
# The numbers of synthetic ids

Synthetic ids are taken in the order in which nodes are reached, and that is the order in which the
finished tree is read. So the numbers rise from the count at the start to the count at the end, and
the only numbers left out are those of the unions and intersections that gave way to their members.
The nodes of one description have different synthetic ids for that reason, and so do those of a node
in a catalog, where every node is described from zero.
-/

set_option autoImplicit false

namespace AmbientCatalog

theorem syntheticId_injective : Function.Injective syntheticId := by
  intro n m h
  have hcount := congrArg countOf? h
  rw [countOf?_syntheticId, countOf?_syntheticId] at hcount
  exact Option.some.inj hcount

namespace Node

def syntheticId? (node : Node) : Option String := if node.isSynthetic then some node.id else none

def syntheticIdsOf (nodes : List Node) : List String := (preorders nodes).filterMap syntheticId?

def syntheticIds (node : Node) : List String := node.preorder.filterMap syntheticId?

@[simp] theorem syntheticIdsOf_append (nodes others : List Node) :
    syntheticIdsOf (nodes ++ others) = syntheticIdsOf nodes ++ syntheticIdsOf others := by
  simp [syntheticIdsOf]

theorem syntheticIdsOf_singleton (node : Node) : syntheticIdsOf [node] = node.syntheticIds := by
  simp [syntheticIdsOf, syntheticIds]

theorem syntheticIds_natural {node : Node} (h : node.isSynthetic = false) :
    node.syntheticIds = syntheticIdsOf node.children := by
  simp [syntheticIds, syntheticIdsOf, preorder_eq, syntheticId?, h]

theorem syntheticIds_synthetic {node : Node} (h : node.isSynthetic = true) :
    node.syntheticIds = node.id :: syntheticIdsOf node.children := by
  simp [syntheticIds, syntheticIdsOf, preorder_eq, syntheticId?, h]

theorem isSynthetic_join {node : Node} {join : Join} (h : node.kind = join.kind) :
    node.isSynthetic = true := by
  cases join <;> simp [isSynthetic, h, Join.kind]

theorem syntheticIdsOf_retagged (tags : TagSet → TagSet) (nodes : List Node) :
    syntheticIdsOf (nodes.map (retagged tags)) = syntheticIdsOf nodes :=
  filterMap_preorders_retagged syntheticId? tags (fun _ => rfl) nodes

/-- Every node that gives way takes one synthetic id with it. -/
theorem length_syntheticIdsOf_spliced (join : Join) {nodes : List Node}
    (hbare : ∀ node ∈ nodes, node.IsBare) :
    (syntheticIdsOf nodes).length =
      (syntheticIdsOf (spliced join.kind nodes)).length + nodes.countP (mergesInto join.kind) := by
  induction nodes with
  | nil => rfl
  | cons node nodes ih =>
    have hrest := ih (fun other h => hbare other (List.mem_cons_of_mem _ h))
    simp only [syntheticIdsOf] at hrest ⊢
    cases hmerged : node.mergesInto join.kind with
    | true =>
      have hnode := (hbare node List.mem_cons_self).preorder_merged hmerged
      have hid : node.syntheticId? = some node.id :=
        if_pos (isSynthetic_join (mergesInto_iff.mp hmerged).1)
      simp [spliced_cons_merged hmerged, hnode, hid, hmerged, hrest]
      omega
    | false =>
      simp [spliced_cons_kept hmerged, hmerged, hrest]
      omega

end Node

/-- The ids are synthetic, and their numbers rise from one count to another. As many numbers are
left out as the second argument says. -/
def Numbered (ids : List String) (omitted first last : Nat) : Prop :=
  ∃ counts : List Nat, ids = counts.map syntheticId ∧ counts.Pairwise (· < ·) ∧
    (∀ count ∈ counts, first ≤ count ∧ count < last) ∧ last = first + counts.length + omitted

namespace Numbered

variable {ids others : List String} {omitted more first next last : Nat}

theorem nil (n : Nat) : Numbered [] 0 n n := ⟨[], rfl, .nil, by simp, rfl⟩

theorem append (h : Numbered ids omitted first next) (h' : Numbered others more next last) :
    Numbered (ids ++ others) (omitted + more) first last := by
  obtain ⟨counts, rfl, hsorted, hwithin, hnext⟩ := h
  obtain ⟨counts', rfl, hsorted', hwithin', hlast⟩ := h'
  refine ⟨counts ++ counts', List.map_append.symm, ?_, ?_, ?_⟩
  · refine List.pairwise_append.mpr ⟨hsorted, hsorted', fun count hcount count' hcount' => ?_⟩
    exact Nat.lt_of_lt_of_le (hwithin count hcount).2 (hwithin' count' hcount').1
  · intro count hcount
    rcases List.mem_append.mp hcount with hcount | hcount
    · have hbounds := hwithin count hcount
      omega
    · have hbounds := hwithin' count hcount
      omega
  · rw [List.length_append]
    omega

theorem cons (h : Numbered ids omitted (first + 1) last) :
    Numbered (syntheticId first :: ids) omitted first last := by
  obtain ⟨counts, rfl, hsorted, hwithin, hlast⟩ := h
  refine ⟨first :: counts, rfl, ?_, ?_, ?_⟩
  · exact List.pairwise_cons.mpr ⟨fun count hcount => (hwithin count hcount).1, hsorted⟩
  · intro count hcount
    rcases List.mem_cons.mp hcount with rfl | hcount
    · omega
    · have hbounds := hwithin count hcount
      omega
  · rw [List.length_cons]
    omega

theorem sublist (h : Numbered ids omitted first last) (hsub : others.Sublist ids)
    (hlength : ids.length = others.length + more) :
    Numbered others (more + omitted) first last := by
  obtain ⟨counts, rfl, hsorted, hwithin, hlast⟩ := h
  obtain ⟨kept, hkept, rfl⟩ := List.sublist_map_iff.mp hsub
  refine ⟨kept, rfl, hsorted.sublist hkept, fun count hcount => hwithin count (hkept.subset hcount),
    ?_⟩
  rw [List.length_map, List.length_map] at hlength
  omega

theorem nodup (h : Numbered ids omitted first last) : ids.Nodup := by
  obtain ⟨counts, rfl, hsorted, -, -⟩ := h
  exact List.Nodup.map syntheticId_injective (hsorted.imp Nat.ne_of_lt)

end Numbered

namespace Phrase

theorem mergesIn_append (phrases others : List Phrase) :
    mergesIn (phrases ++ others) = mergesIn phrases + mergesIn others := by
  induction phrases with
  | nil => rw [List.nil_append, mergesIn, Nat.zero_add]
  | cons phrase phrases ih => rw [List.cons_append, mergesIn, mergesIn, ih, Nat.add_assoc]

theorem mergesIn_eq_zero {phrases : List Phrase} (h : ∀ phrase ∈ phrases, phrase.merges = 0) :
    mergesIn phrases = 0 := by
  induction phrases with
  | nil => rfl
  | cons phrase phrases ih =>
    rw [mergesIn, h phrase List.mem_cons_self,
      ih (fun other hother => h other (List.mem_cons_of_mem _ hother))]

end Phrase

/-- What is put together numbers its nodes in order, and leaves out one number for each union or
intersection that gives way. -/
theorem Renders.numbered {phrases : List Phrase} {nodes : Fresh (List Node)}
    (h : Renders phrases nodes) (n : Nat) :
    Numbered (Node.syntheticIdsOf (nodes n).1) (Phrase.mergesIn phrases) n (nodes n).2 := by
  induction h generalizing n with
  | nothing phrases h =>
    rw [Phrase.mergesIn_eq_zero (fun phrase hphrase => (h phrase hphrase).2)]
    exact .nil n
  | append h h' ih ih' =>
    have happend := (ih n).append (ih' _)
    simpa [Node.syntheticIdsOf, Phrase.mergesIn_append] using happend
  | node base h hg hp hr hphrases ihg ihp ihr =>
    subst hphrases
    -- the children start one number later if their parent takes one itself
    have hchildren := fun count => ((ihg count).append (ihp _)).append (ihr _)
    simp only [Fresh.bind_apply, Fresh.pure_apply, Node.syntheticIdsOf_singleton,
      Phrase.mergesIn, Phrase.mergesIn_append, h.merges, Nat.zero_add]
    cases hsynthetic : base.isSynthetic with
    | true =>
      rw [Node.syntheticIds_synthetic (by exact hsynthetic)]
      simp only [Node.identify, hsynthetic, if_true, Fresh.freshId_apply, Node.children,
        Node.syntheticIdsOf_append]
      exact (hchildren (n + 1)).cons
    | false =>
      rw [Node.syntheticIds_natural (by exact hsynthetic)]
      simp only [Node.identify, hsynthetic, Bool.false_eq_true, if_false, Fresh.pure_apply,
        Node.children, Node.syntheticIdsOf_append]
      exact hchildren n
  | join join hleaf hmerges h ih =>
    have hbare := h.bare (n + 1)
    have hmembers := (ih (n + 1)).sublist
      ((Node.preorders_spliced_sublist join hbare).filterMap Node.syntheticId?)
      (Node.length_syntheticIdsOf_spliced join hbare)
    rw [hmerges] at hmembers
    simp only [Fresh.bind_apply, Fresh.pure_apply, Fresh.freshId_apply,
      Node.syntheticIdsOf_singleton, Phrase.mergesIn]
    rw [Node.syntheticIds_synthetic (Node.isSynthetic_join rfl)]
    exact hmembers.cons
  | retag tags h ih =>
    have hids := ih n
    rw [← Node.syntheticIdsOf_retagged tags] at hids
    exact hids

theorem Renders.numbered_single {phrases : List Phrase} {description : Fresh Node}
    (h : Renders phrases (Fresh.single description)) (n : Nat) :
    Numbered (description n).1.syntheticIds (Phrase.mergesIn phrases) n (description n).2 := by
  have hnumbered := h.numbered n
  rwa [Fresh.single, Fresh.bind_apply, Fresh.pure_apply, Node.syntheticIdsOf_singleton]
    at hnumbered

section Registered

/-! Every node of a catalog is described from zero, or its children are. -/

theorem Renders.nodup_described {phrases : List Phrase} {description : Fresh Node}
    (h : Renders phrases (Fresh.single description)) : (described description).syntheticIds.Nodup :=
  (h.numbered_single 0).nodup

theorem Renders.nodup_natural {phrases : List Phrase} {nodes : Fresh (List Node)}
    (h : Renders phrases nodes) {node : Node} (hnatural : node.isSynthetic = false)
    (hchildren : node.children = described nodes) :
    node.syntheticIds.Nodup := by
  rw [Node.syntheticIds_natural hnatural, hchildren]
  exact (h.numbered 0).nodup

theorem Signature.nodup_described {base : Node} (h : base.isSynthetic = false)
    (signature : Signature) : (described (signature.describe base)).syntheticIds.Nodup := by
  refine (signature.renders base).nodup_natural ?_ rfl
  obtain ⟨generics, params, result⟩ := signature
  exact h

theorem Member.nodup_node (scope : String) (isStatic : Bool) (member : Member) :
    (member.node scope isStatic).syntheticIds.Nodup := by
  cases isStatic with
  | true => exact ((member.renders scope).tagged .isStatic).nodup_described
  | false => exact (member.renders scope).nodup_described

theorem ClassMember.nodup_node {className : String} {member : ClassMember} {node : Node}
    (h : member.node? className = some node) : node.syntheticIds.Nodup := by
  cases member with
  | constructor access params =>
    obtain rfl := Option.some.inj h
    exact (renders_constructorParams params).nodup_natural rfl (by simp [Node.children])
  | method form key flags signature =>
    obtain rfl := Option.some.inj h
    exact Signature.nodup_described (by cases form <;> rfl) signature
  | property key flags type =>
    obtain rfl := Option.some.inj h
    exact (renders_maybe type).nodup_natural rfl rfl
  | index isReadonly isStatic params type =>
    obtain rfl := Option.some.inj h
    exact (Member.renders _ (.index isReadonly isStatic params type)).nodup_described
  | silent => simp [ClassMember.node?] at h

theorem ClassDecl.nodup_nodes {scope : String} {decl : ClassDecl} {node : Node}
    (h : node ∈ decl.nodes scope) : node.syntheticIds.Nodup := by
  rcases List.mem_cons.mp h with rfl | h
  · obtain ⟨phrases, hbase⟩ := renders_superclass decl.superclass decl.superArgs
    refine ((renders_typeParams decl.generics).append hbase).nodup_natural rfl ?_
    simp [ClassDecl.node, described, Node.children]
  · obtain ⟨member, -, hnode⟩ := List.mem_filterMap.mp h
    exact member.nodup_node hnode

theorem Site.States.nodup {site : Site} {node : Node} (h : site.States node) :
    node.syntheticIds.Nodup := by
  cases h with
  | @ofFunction decl h => exact Signature.nodup_described rfl decl.signature
  | @ofVariable decl name type h hd => exact (renders_maybe type).nodup_natural rfl rfl
  | @ofInline decl name members member h hd hm => exact member.nodup_node _ true
  | ofClass h hn => exact ClassDecl.nodup_nodes hn
  | ofNamespace h hn => exact Renders.nil.nodup_natural rfl rfl

theorem Setting.Origin.nodup {s : Setting} {sites : List Site} {node : Node}
    (h : s.Origin sites node) : node.syntheticIds.Nodup := by
  rcases h with ⟨site, -, hstates⟩ | ⟨interface, role, binding, -, name, -, member, -, rfl⟩
  · exact hstates.nodup
  · exact member.nodup_node _ _

end Registered

/-- Synthetic ids are in reading order: they take all numbers from the count at the start to the
count at the end but one for each union or intersection that gives way. No overload has one twice.
-/
theorem describe_numbered :
    (∀ n : Nat,
      (∀ type : TypeExpr, Numbered (type.describe n).1.syntheticIds
        (Phrase.mergesIn type.phrases) n (type.describe n).2) ∧
      (∀ param : Param, Numbered (param.describe n).1.syntheticIds
        (Phrase.mergesIn param.phrases) n (param.describe n).2) ∧
      (∀ (scope : String) (member : Member), Numbered (member.describe scope n).1.syntheticIds
        (Phrase.mergesIn member.phrases) n (member.describe scope n).2) ∧
      (∀ params : List TypeParam, Numbered (Node.syntheticIdsOf (describeTypeParams params n).1)
        (Phrase.mergesIn (phrasesOfTypeParams params)) n (describeTypeParams params n).2) ∧
      ∀ (base : Node) (signature : Signature),
        let result := signature.describe base n
        Numbered (Node.syntheticIdsOf result.1.children)
          (Phrase.mergesIn signature.phrases) n result.2) ∧
    ∀ (corpus : Corpus) (options : Options), ∃ catalog,
      Catalog.build corpus options = .ok catalog ∧
        ∀ name overloads, (name, overloads) ∈ catalog.registry.entries →
          ∀ node ∈ overloads, node.syntheticIds.Nodup := by
  refine ⟨fun n => ⟨fun type => type.renders.numbered_single n,
    fun param => param.renders.numbered_single n,
    fun scope member => (member.renders scope).numbered_single n,
    fun params => (renders_typeParams params).numbered n,
    fun base signature => (signature.renders base).numbered n⟩, fun corpus options => ?_⟩
  obtain ⟨nodes, -, -, hbuild, hmem⟩ := Catalog.build_run corpus options
  refine ⟨_, hbuild, fun name overloads hentry node hnode => ?_⟩
  obtain ⟨kept, htable, rfl⟩ := Registry.mem_entries.mp hentry
  obtain ⟨overload, hkept, rfl⟩ := List.mem_map.mp hnode
  have hproper := Registry.saveAll_proper nodes _ htable
  exact (Setting.emits_origin (s := corpus.setting options) corpus.index_isOf
    (wellNamed_fileSites corpus.files) (hproper.plain overload hkept)
    ((hmem overload.node).mp (hproper.saved overload hkept))).nodup

end AmbientCatalog
