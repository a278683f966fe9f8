import AmbientCatalog.Describe
import AmbientCatalog.Proofs.Phrases
import AmbientCatalog.Proofs.Recording

/-!
# The nodes of a description in order

A tree of nodes is read with each node before its children, and the children by their place: first
the generics, then the parameters, then the results. Nodes without a name of their own have a
synthetic id, and some nodes show a name or a text of the source. What is read off the nodes does
not depend on their tags, nor does it matter that a union takes over the members of a union, apart
from the node of the union that gives way.
-/

set_option autoImplicit false

namespace AmbientCatalog

namespace Node

mutual
def preorder : Node → List Node
  | node@⟨_, _, _, returns, params, generics, _, _⟩ =>
    node :: (preorders generics ++ preorders params ++ preorders returns)

def preorders : List Node → List Node
  | [] => []
  | node :: nodes => node.preorder ++ preorders nodes
end

def children (node : Node) : List Node := node.generics ++ node.params ++ node.returns

theorem preorders_eq_flatMap (nodes : List Node) : preorders nodes = nodes.flatMap preorder := by
  induction nodes with
  | nil => rw [preorders, List.flatMap_nil]
  | cons node nodes ih => rw [preorders, ih, List.flatMap_cons]

@[simp] theorem preorders_nil : preorders [] = [] := by
  rw [preorders]

@[simp] theorem preorders_cons (node : Node) (nodes : List Node) :
    preorders (node :: nodes) = node.preorder ++ preorders nodes := by
  rw [preorders]

@[simp] theorem preorders_append (nodes others : List Node) :
    preorders (nodes ++ others) = preorders nodes ++ preorders others := by
  simp [preorders_eq_flatMap]

theorem preorder_eq (node : Node) : node.preorder = node :: preorders node.children := by
  cases node
  rw [preorder, children, preorders_append, preorders_append]

theorem mem_preorder {node top : Node} :
    node ∈ top.preorder ↔ node = top ∨ node ∈ preorders top.children := by
  rw [preorder_eq, List.mem_cons]

theorem mem_preorders {node : Node} {nodes : List Node} :
    node ∈ preorders nodes ↔ ∃ top ∈ nodes, node ∈ top.preorder := by
  simp [preorders_eq_flatMap]

theorem mem_preorders_of_mem {node : Node} {nodes : List Node} (h : node ∈ nodes) :
    node ∈ preorders nodes :=
  mem_preorders.mpr ⟨node, h, mem_preorder.mpr (.inl rfl)⟩

theorem mem_preorders_singleton {node top : Node} :
    node ∈ preorders [top] ↔ node = top ∨ node ∈ preorders top.children := by
  rw [preorders_cons, preorders_nil, List.append_nil, mem_preorder]

/-- The node has no name of its own, so that its id is a synthetic one. A call signature is named by
its scope alone, which is empty in a type literal. -/
def isSynthetic (node : Node) : Bool :=
  match node.kind with
  | .typeReference => false
  | .parameter => false
  | .typeParameter => false
  | .identifier => false
  | .propertySignature => false
  | .methodSignature => false
  | .indexSignature => false
  | .constructSignature => false
  | .callSignature => node.name = ""
  | .getAccessor => false
  | .setAccessor => false
  | .classConstructor => false
  | .propertyDeclaration => false
  | .methodDeclaration => false
  | .functionDeclaration => false
  | .variableDeclaration => false
  | .interfaceDeclaration => false
  | .moduleDeclaration => false
  | .classDeclaration => false
  | _ => true

def leaf? (node : Node) : Option (Kind × String) :=
  match node.kind with
  | .typeReference => some (node.kind, node.name)
  | .typeQuery => some (node.kind, node.name)
  | .importType => some (node.kind, node.name)
  | .typeParameter => some (node.kind, node.name)
  | .parameter => some (node.kind, node.name)
  | .identifier => some (node.kind, node.name)
  | .keyword _ => node.text.map (node.kind, ·)
  | .thisType => node.text.map (node.kind, ·)
  | .literalType => node.text.map (node.kind, ·)
  | .templateLiteralType => node.text.map (node.kind, ·)
  | _ => none

def retagged (tags : TagSet → TagSet) (node : Node) : Node := { node with tags := tags node.tags }

end Node

def Kind.isJoin : Kind → Bool
  | .unionType => true
  | .intersectionType => true
  | _ => false

@[simp] theorem Join.isJoin_kind (join : Join) : join.kind.isJoin = true := by
  cases join <;> rfl

theorem Join.kind_injective : Function.Injective Join.kind := by
  intro join join' h
  cases join <;> cases join' <;> first | rfl | cases h

namespace Node

def mergesInto (kind : Kind) (node : Node) : Bool := node.kind = kind ∧ node.tags.isEmpty

theorem mergesInto_iff {kind : Kind} {node : Node} :
    node.mergesInto kind = true ↔ node.kind = kind ∧ node.tags = TagSet.empty := by
  simp [mergesInto, TagSet.isEmpty]

theorem mergesInto_of_apart (join : Join) {node : Node} (h : node.kind.isJoin = false) :
    node.mergesInto join.kind = false := by
  have hne : node.kind ≠ join.kind := by
    intro hkind
    simp [hkind] at h
  simp [mergesInto, hne]

theorem mergesInto_tagged (kind : Kind) (node : Node) (t : Tag) :
    (node.tagged t).mergesInto kind = false := by
  simp [mergesInto, tagged, TagSet.insert_isEmpty]

theorem mergesInto_untagged (kind : Kind) {node : Node} (h : node.tags = TagSet.empty) :
    node.mergesInto kind = decide (node.kind = kind) := by
  have htags : node.tags.isEmpty = true := by
    rw [h]
    rfl
  simp [mergesInto, htags]

def spliced (kind : Kind) (members : List Node) : List Node := members.foldr (spliceInto kind) []

@[simp] theorem spliced_nil (kind : Kind) : spliced kind [] = [] := rfl

theorem spliced_cons_merged {kind : Kind} {node : Node} (h : node.mergesInto kind = true)
    (nodes : List Node) : spliced kind (node :: nodes) = node.returns ++ spliced kind nodes :=
  if_pos (of_decide_eq_true h)

theorem spliced_cons_kept {kind : Kind} {node : Node} (h : node.mergesInto kind = false)
    (nodes : List Node) : spliced kind (node :: nodes) = node :: spliced kind nodes :=
  if_neg (of_decide_eq_false h)

theorem spliced_cons (kind : Kind) (node : Node) (nodes : List Node) :
    spliced kind (node :: nodes) = spliced kind [node] ++ spliced kind nodes := by
  cases hmerged : node.mergesInto kind with
  | true => simp [spliced_cons_merged, hmerged]
  | false => simp [spliced_cons_kept, hmerged]

def IsBare (node : Node) : Prop := node.kind.isJoin = true → node.children = node.returns

theorem IsBare.preorder_merged {node : Node} (h : node.IsBare) {join : Join}
    (hmerged : node.mergesInto join.kind = true) :
    node.preorder = node :: preorders node.returns := by
  rw [preorder_eq, h (by simp [(mergesInto_iff.mp hmerged).1])]

theorem preorders_spliced_sublist (join : Join) {nodes : List Node}
    (hbare : ∀ node ∈ nodes, node.IsBare) :
    (preorders (spliced join.kind nodes)).Sublist (preorders nodes) := by
  induction nodes with
  | nil => exact List.Sublist.refl _
  | cons node nodes ih =>
    have hrest := ih (fun other h => hbare other (List.mem_cons_of_mem _ h))
    cases hmerged : node.mergesInto join.kind with
    | true =>
      have hnode := (hbare node List.mem_cons_self).preorder_merged hmerged
      rw [spliced_cons_merged hmerged, preorders_append, preorders_cons, hnode, List.cons_append]
      exact (hrest.append_left _).cons _
    | false =>
      rw [spliced_cons_kept hmerged, preorders_cons, preorders_cons]
      exact hrest.append_left _

section Views

variable {α : Type} (view : Node → Option α)

/-- What is read off the nodes is the same after splicing if nothing is read off the nodes that give
way. -/
theorem filterMap_preorders_spliced (join : Join) {nodes : List Node}
    (hbare : ∀ node ∈ nodes, node.IsBare)
    (hview : ∀ node : Node, node.mergesInto join.kind = true → view node = none) :
    (preorders (spliced join.kind nodes)).filterMap view = (preorders nodes).filterMap view := by
  induction nodes with
  | nil => rfl
  | cons node nodes ih =>
    have hrest := ih (fun other h => hbare other (List.mem_cons_of_mem _ h))
    cases hmerged : node.mergesInto join.kind with
    | true =>
      have hnode := (hbare node List.mem_cons_self).preorder_merged hmerged
      simp [spliced_cons_merged hmerged, hnode, hview node hmerged, hrest]
    | false => simp [spliced_cons_kept hmerged, hrest]

theorem filterMap_preorders_retagged (tags : TagSet → TagSet)
    (hview : ∀ node : Node, view (node.retagged tags) = view node) (nodes : List Node) :
    (preorders (nodes.map (retagged tags))).filterMap view = (preorders nodes).filterMap view := by
  induction nodes with
  | nil => rfl
  | cons node nodes ih =>
    have hnode : (node.retagged tags).preorder.filterMap view = node.preorder.filterMap view := by
      rw [preorder_eq, preorder_eq, List.filterMap_cons, List.filterMap_cons, hview]
      rfl
    simp [hnode, ih]

end Views

end Node

end AmbientCatalog
