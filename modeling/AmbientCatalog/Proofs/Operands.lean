import AmbientCatalog.Proofs.Shifting

/-!
# The operands of unions and intersections

A union takes over the members of the unions in it, and these have taken over the members of theirs
before. So one level at a time is enough: no union has an untagged union for a child in the end, and
what it has are the operands that are left when parentheses and unions in the union are opened. The
same goes for intersections. How the operands were put in parentheses cannot be told any more, but
for the numbers of the synthetic ids.
-/

set_option autoImplicit false

namespace AmbientCatalog

mutual
def TypeExpr.operands (join : Join) : TypeExpr → List TypeExpr
  | .group inner => inner.operands join
  | .union members =>
    if join = .union then operandsOf join members else [.union members]
  | .intersection members =>
    if join = .intersection then operandsOf join members else [.intersection members]
  | type => [type]

def operandsOf (join : Join) : List TypeExpr → List TypeExpr
  | [] => []
  | type :: types => type.operands join ++ operandsOf join types
end

namespace Node

def IsFlat (node : Node) : Prop :=
  ∀ join : Join, node.kind = join.kind → ∀ child ∈ node.children, child.mergesInto join.kind = false

/-- Members that give way are flat, so what they bring in does not give way. -/
theorem mergesInto_of_mem_spliced (join : Join) {nodes : List Node}
    (hflat : ∀ node ∈ nodes, node.IsFlat) {node : Node} (h : node ∈ spliced join.kind nodes) :
    node.mergesInto join.kind = false := by
  induction nodes with
  | nil => simp at h
  | cons first rest ih =>
    have hrest := ih (fun other hother => hflat other (List.mem_cons_of_mem _ hother))
    cases hmerged : first.mergesInto join.kind with
    | true =>
      rw [spliced_cons_merged hmerged, List.mem_append] at h
      rcases h with h | h
      · exact hflat first List.mem_cons_self join (mergesInto_iff.mp hmerged).1 node
          (List.mem_append_right _ h)
      · exact hrest h
    | false =>
      rw [spliced_cons_kept hmerged, List.mem_cons] at h
      rcases h with rfl | h
      · exact hmerged
      · exact hrest h

def anonymous : Node → Node := relabelled (fun _ => "")

theorem anonymous_shifted (n : Nat) (node : Node) : (node.shifted n).anonymous = node.anonymous :=
  relabelled_relabelled _ _ node

end Node

theorem Renders.flat {phrases : List Phrase} {nodes : Fresh (List Node)} (h : Renders phrases nodes)
    (n : Nat) : ∀ node ∈ Node.preorders (nodes n).1, node.IsFlat := by
  induction h generalizing n with
  | nothing phrases h => simp
  | append h h' ih ih' =>
    intro node hnode
    simp only [Fresh.bind_apply, Fresh.pure_apply, Node.preorders_append, List.mem_append] at hnode
    rcases hnode with hnode | hnode
    · exact ih _ node hnode
    · exact ih' _ node hnode
  | node base h hg hp hr hphrases ihg ihp ihr =>
    intro node hnode
    rcases Node.mem_preorders_singleton.mp hnode with rfl | hnode
    · intro join hkind
      have hjoin : base.kind.isJoin = true := (congrArg Kind.isJoin hkind).trans join.isJoin_kind
      exact absurd (h.apart.symm.trans hjoin) (by simp)
    · simp only [Node.children, Node.preorders_append, List.mem_append] at hnode
      rcases hnode with (hnode | hnode) | hnode
      · exact ihg _ node hnode
      · exact ihp _ node hnode
      · exact ihr _ node hnode
  | join join hleaf hmerges h ih =>
    intro node hnode
    rcases Node.mem_preorders_singleton.mp hnode with rfl | hnode
    · intro join' hkind child hchild
      obtain rfl := Join.kind_injective hkind
      exact Node.mergesInto_of_mem_spliced join
        (fun member hmember => ih (n + 1) member (Node.mem_preorders_of_mem hmember)) hchild
    · exact ih (n + 1) node ((Node.preorders_spliced_sublist join (h.bare (n + 1))).subset hnode)
  | retag tags h ih =>
    intro node hnode
    obtain ⟨_, htop, hbelow⟩ := Node.mem_preorders.mp hnode
    obtain ⟨before, hbefore, rfl⟩ := List.mem_map.mp htop
    rcases Node.mem_preorder.mp hbelow with rfl | hbelow
    · exact ih n before (Node.mem_preorders_of_mem hbefore)
    · exact ih n node
        (Node.mem_preorders.mpr ⟨before, hbefore, Node.mem_preorder.mpr (.inr hbelow)⟩)

def TypeExpr.anonymous (type : TypeExpr) : Node := (described type.describe).anonymous

theorem TypeExpr.anonymous_describe (type : TypeExpr) (n : Nat) :
    (type.describe n).1.anonymous = type.anonymous := by
  rw [type.renders.shifts_single n]
  exact Node.anonymous_shifted n _

theorem TypeExpr.spliced_apart (join : Join) {type : TypeExpr} (h : type.joinsAs join = false)
    (hoperands : type.operands join = [type]) (n : Nat) :
    (Node.spliced join.kind [(type.describe n).1]).map Node.anonymous =
      (type.operands join).map TypeExpr.anonymous := by
  rw [Node.spliced_cons_kept ((type.mergesInto_describe join n).trans h), hoperands]
  exact congrArg (fun node => [node]) (type.anonymous_describe n)

theorem returns_describe_of (join : Join) (members : List TypeExpr) (n : Nat) :
    ((join.of members).describe n).1.returns =
      Node.spliced join.kind (describeTypes members (n + 1)).1 := by
  cases join with
  | union => simp [Join.of, Join.kind, TypeExpr.describe, describeSpliced_eq]
  | intersection => simp [Join.of, Join.kind, TypeExpr.describe, describeSpliced_eq]

/-- A union brings the operands of its members into a union, and an intersection into an
intersection. -/
theorem Join.spliced_of (join : Join) {members : List TypeExpr} {n : Nat}
    (h : (Node.spliced join.kind (describeTypes members (n + 1)).1).map Node.anonymous =
      (operandsOf join members).map TypeExpr.anonymous) :
    (Node.spliced join.kind [((join.of members).describe n).1]).map Node.anonymous =
      (operandsOf join members).map TypeExpr.anonymous := by
  have hjoins : (join.of members).joinsAs join = true := by cases join <;> rfl
  rw [Node.spliced_cons_merged (((join.of members).mergesInto_describe join n).trans hjoins),
    Node.spliced_nil, List.append_nil, returns_describe_of, h]

-- the count is free, as every member is described from where the one before it ends
mutual
theorem TypeExpr.spliced_operands (join : Join) (type : TypeExpr) (n : Nat) :
    (Node.spliced join.kind [(type.describe n).1]).map Node.anonymous =
      (type.operands join).map TypeExpr.anonymous := by
  cases type with
  | group inner => exact inner.spliced_operands join n
  | union members =>
    cases join with
    | union => exact Join.spliced_of .union (spliced_operandsOf .union members (n + 1))
    | intersection => exact TypeExpr.spliced_apart .intersection rfl rfl n
  | intersection members =>
    cases join with
    | union => exact TypeExpr.spliced_apart .union rfl rfl n
    | intersection =>
      exact Join.spliced_of .intersection (spliced_operandsOf .intersection members (n + 1))
  | _ => exact TypeExpr.spliced_apart join rfl rfl n

theorem spliced_operandsOf (join : Join) : ∀ (types : List TypeExpr) (n : Nat),
    (Node.spliced join.kind (describeTypes types n).1).map Node.anonymous =
      (operandsOf join types).map TypeExpr.anonymous
  | [], n => rfl
  | type :: types, n => by
    have hrest := spliced_operandsOf join types (type.describe n).2
    simp only [describeTypes, Fresh.bind_apply, Fresh.pure_apply, operandsOf, List.map_append]
    rw [Node.spliced_cons, List.map_append, type.spliced_operands join n, hrest]
end

theorem Join.anonymous_of (join : Join) (members : List TypeExpr) :
    (join.of members).anonymous =
      { id := ""
        kind := join.kind
        returns := (operandsOf join members).map TypeExpr.anonymous } := by
  rw [← spliced_operandsOf join members 1, ← returns_describe_of, TypeExpr.anonymous,
    Node.anonymous, Node.relabelled_eq]
  cases join <;> rfl

/-- A union is known by its operands but for the ids, and so is an intersection. -/
theorem TypeExpr.anonymous_of_joins (join : Join) : ∀ {type : TypeExpr},
    type.joinsAs join = true → type.anonymous =
      { id := "", kind := join.kind, returns := (type.operands join).map TypeExpr.anonymous } := by
  intro type h
  cases type with
  | group inner => exact inner.anonymous_of_joins join h
  | union members =>
    obtain rfl := of_decide_eq_true h
    exact Join.anonymous_of .union members
  | intersection members =>
    obtain rfl := of_decide_eq_true h
    exact Join.anonymous_of .intersection members
  | _ => cases h

/-- Nowhere does a union have an untagged union for a child. But for the ids, a union consists of
the operands that are left when the parentheses and unions in it are opened, and so does an
intersection. -/
theorem describe_operands (join : Join) :
    (∀ (type : TypeExpr) (n : Nat), ∀ node ∈ (type.describe n).1.preorder,
      node.kind = join.kind → ∀ child ∈ node.children,
        child.kind = join.kind → child.tags ≠ TagSet.empty) ∧
    (∀ (members : List TypeExpr) (n : Nat), ((join.of members).describe n).1.anonymous =
      { id := ""
        kind := join.kind
        returns := (operandsOf join members).map TypeExpr.anonymous }) ∧
    ∀ (type other : TypeExpr) (n m : Nat),
      type.joinsAs join = true → other.joinsAs join = true →
        type.operands join = other.operands join →
          (type.describe n).1.anonymous = (other.describe m).1.anonymous := by
  refine ⟨fun type n node hnode hkind child hchild hkind' htags => ?_, fun members n => ?_,
    fun type other n m htype hother hoperands => ?_⟩
  · have hflat := type.renders.flat n node (by simpa [Fresh.single] using hnode)
    have hkept := hflat join hkind child hchild
    rw [Node.mergesInto_iff.mpr ⟨hkind', htags⟩] at hkept
    cases hkept
  · rw [TypeExpr.anonymous_describe, Join.anonymous_of]
  · rw [TypeExpr.anonymous_describe, TypeExpr.anonymous_describe,
      TypeExpr.anonymous_of_joins join htype, TypeExpr.anonymous_of_joins join hother, hoperands]

/-- The types `(A | B) | C` and `A | (B | C)`, the one described before the other, and a union that
keeps a union because that one is marked as optional. -/
theorem describe_operands_abc :
    let a := TypeExpr.reference (.ident "A") []
    let b := TypeExpr.reference (.ident "B") []
    let c := TypeExpr.reference (.ident "C") []
    let left := TypeExpr.union [.group (.union [a, b]), c]
    let right := TypeExpr.union [a, .group (.union [b, c])]
    let marked := TypeExpr.union [a, .optional (.union [b, c])]
    left.operands .union = right.operands .union ∧
      (left.describe 0).1.anonymous = (right.describe 2).1.anonymous ∧
      ∃ child ∈ (marked.describe 0).1.children, child.kind = .unionType ∧
        child.tags ≠ TagSet.empty := by
  intro a b c left right marked
  refine ⟨rfl, (describe_operands .union).2.2 left right 0 2 rfl rfl rfl, ?_⟩
  refine ⟨_, List.mem_cons_of_mem _ List.mem_cons_self, rfl, ?_⟩
  exact (describe_operands .union).1 marked 0 _ (Node.mem_preorder.mpr (.inl rfl)) rfl _
    (List.mem_cons_of_mem _ List.mem_cons_self) rfl

end AmbientCatalog
