import AmbientCatalog.Heritage
import AmbientCatalog.Proofs.Rendering

/-!
# Where the count of synthetic ids starts

Synthetic ids are taken from a count. A description that starts from a later count is the same, with
the number of every synthetic id larger by the difference, and it takes as many ids. So descriptions
that follow each other on one count differ in their synthetic ids only, and descriptions that start
from zero each do not differ at all.
-/

set_option autoImplicit false

namespace AmbientCatalog

namespace Node

mutual
def relabelled (f : String → String) : Node → Node
  | node@⟨id, kind, name, returns, params, generics, text, tags⟩ =>
    { id := if node.isSynthetic then f id else id
      kind := kind
      name := name
      returns := relabelledAll f returns
      params := relabelledAll f params
      generics := relabelledAll f generics
      text := text
      tags := tags }

def relabelledAll (f : String → String) : List Node → List Node
  | [] => []
  | node :: nodes => node.relabelled f :: relabelledAll f nodes
end

theorem relabelledAll_eq_map (f : String → String) (nodes : List Node) :
    relabelledAll f nodes = nodes.map (relabelled f) := by
  induction nodes with
  | nil => rw [relabelledAll, List.map_nil]
  | cons node nodes ih => rw [relabelledAll, ih, List.map_cons]

theorem relabelled_eq (f : String → String) (node : Node) :
    node.relabelled f =
      { node with
        id := if node.isSynthetic then f node.id else node.id
        returns := node.returns.map (relabelled f)
        params := node.params.map (relabelled f)
        generics := node.generics.map (relabelled f) } := by
  cases node
  simp only [relabelled, relabelledAll_eq_map]

mutual
theorem relabelled_relabelled (f g : String → String) : ∀ node : Node,
    (node.relabelled f).relabelled g = node.relabelled (g ∘ f)
  | ⟨id, kind, name, returns, params, generics, text, tags⟩ => by
    -- whether a node has a synthetic id depends on nothing that relabelling changes
    have hkept : ∀ id' returns' params' generics',
        isSynthetic ⟨id', kind, name, returns', params', generics', text, tags⟩ =
          isSynthetic ⟨id, kind, name, returns, params, generics, text, tags⟩ :=
      fun _ _ _ _ => rfl
    cases hsynthetic : isSynthetic ⟨id, kind, name, returns, params, generics, text, tags⟩ <;>
      simp [relabelled, hkept, hsynthetic, relabelledAll_relabelledAll]

theorem relabelledAll_relabelledAll (f g : String → String) : ∀ nodes : List Node,
    relabelledAll g (relabelledAll f nodes) = relabelledAll (g ∘ f) nodes
  | [] => rfl
  | node :: nodes => by
    rw [relabelledAll, relabelledAll, relabelledAll, relabelled_relabelled f g node,
      relabelledAll_relabelledAll f g nodes]
end

@[simp] theorem relabelled_returns (f : String → String) (node : Node) :
    (node.relabelled f).returns = node.returns.map (relabelled f) := by
  rw [relabelled_eq]

@[simp] theorem mergesInto_relabelled (f : String → String) (kind : Kind) (node : Node) :
    (node.relabelled f).mergesInto kind = node.mergesInto kind := by
  rw [relabelled_eq]
  rfl

theorem spliced_relabelled (f : String → String) (kind : Kind) (nodes : List Node) :
    spliced kind (nodes.map (relabelled f)) = (spliced kind nodes).map (relabelled f) := by
  induction nodes with
  | nil => rfl
  | cons node nodes ih =>
    cases hmerged : node.mergesInto kind with
    | true => simp [spliced_cons_merged, hmerged, ih]
    | false => simp [spliced_cons_kept, hmerged, ih]

theorem retagged_relabelled (f : String → String) (tags : TagSet → TagSet) (node : Node) :
    (node.retagged tags).relabelled f = (node.relabelled f).retagged tags := by
  rw [relabelled_eq, relabelled_eq]
  rfl

end Node

def countOf? (id : String) : Option Nat :=
  match id.toList with
  | '_' :: digits =>
    if digits ≠ [] ∧ digits.all Char.isDigit then some (Nat.ofDigitChars 10 digits 0) else none
  | _ => none

theorem countOf?_syntheticId (n : Nat) : countOf? (syntheticId n) = some n := by
  have htext : (syntheticId n).toList = '_' :: Nat.toDigits 10 n := by
    rw [syntheticId, String.toList_append, ← Nat.toList_repr]
    rfl
  have hdigits : (Nat.toDigits 10 n).all Char.isDigit = true :=
    List.all_eq_true.mpr fun _ => Nat.isDigit_of_mem_toDigits (b := 10) (by decide) (by decide)
  simp [countOf?, htext, hdigits, Nat.toDigits_ne_nil, Nat.ofDigitChars_ten_toDigits]

def shiftedId (n : Nat) (id : String) : String :=
  match countOf? id with
  | some count => syntheticId (count + n)
  | none => id

theorem shiftedId_syntheticId (n count : Nat) :
    shiftedId n (syntheticId count) = syntheticId (count + n) := by
  rw [shiftedId, countOf?_syntheticId]

def Node.shifted (n : Nat) : Node → Node := relabelled (shiftedId n)

theorem Node.identify_shifts (base : Node) (n count : Nat) :
    base.identify (count + n) =
      (if base.isSynthetic then shiftedId n (base.identify count).1 else (base.identify count).1,
        (base.identify count).2 + n) := by
  cases hsynthetic : base.isSynthetic with
  | true => simp [identify, hsynthetic, shiftedId_syntheticId, Nat.add_right_comm]
  | false => simp [identify, hsynthetic]

/-- What is put together can start its synthetic ids from a later count. -/
theorem Renders.shifts {phrases : List Phrase} {nodes : Fresh (List Node)}
    (h : Renders phrases nodes) (n count : Nat) :
    nodes (count + n) = ((nodes count).1.map (Node.shifted n), (nodes count).2 + n) := by
  induction h generalizing count with
  | nothing phrases h => simp
  | append h h' ih ih' => simp [ih, ih']
  | node base h hg hp hr hphrases ihg ihp ihr =>
    simp only [Fresh.bind_apply, Fresh.pure_apply, base.identify_shifts, ihg, ihp, ihr,
      List.map_cons, List.map_nil, Node.shifted, Node.relabelled_eq]
    rfl
  | join join hleaf hmerges h ih =>
    have hsynthetic : ∀ (id : String) (members : List Node),
        Node.isSynthetic { id := id, kind := join.kind, returns := members } = true := by
      cases join <;> exact fun _ _ => rfl
    simp only [Fresh.bind_apply, Fresh.pure_apply, Fresh.freshId_apply,
      Nat.add_right_comm count n 1, ih, List.map_cons, List.map_nil, Node.shifted,
      Node.spliced_relabelled, Node.relabelled_eq, hsynthetic, shiftedId_syntheticId]
    rfl
  | retag tags h ih =>
    have hcomm : Node.shifted n ∘ Node.retagged tags = Node.retagged tags ∘ Node.shifted n :=
      funext (Node.retagged_relabelled (shiftedId n) tags)
    simp [ih, hcomm]

theorem Renders.shifts_single {phrases : List Phrase} {description : Fresh Node}
    (h : Renders phrases (Fresh.single description)) (n : Nat) :
    description n = ((description 0).1.shifted n, (description 0).2 + n) := by
  have hshifts := h.shifts n 0
  rw [Nat.zero_add] at hshifts
  have hnode : [(description n).1] = [(description 0).1.shifted n] := congrArg Prod.fst hshifts
  have hcount : (description n).2 = (description 0).2 + n := congrArg Prod.snd hshifts
  exact Prod.ext (List.singleton_inj.mp hnode) hcount

theorem mapM_describe_replicate (type : TypeExpr) (r n : Nat) :
    (List.replicate r type).mapM TypeExpr.describe n =
      ((List.range r).map (fun i =>
          (type.describe 0).1.shifted (n + i * (type.describe 0).2)),
        n + r * (type.describe 0).2) := by
  induction r generalizing n with
  | zero => simp
  | succ r ih =>
    have hnext : ∀ i, (type.describe 0).2 + n + i * (type.describe 0).2 =
        n + (i + 1) * (type.describe 0).2 := by
      intro i
      rw [Nat.add_mul, Nat.one_mul]
      omega
    simp only [List.replicate_succ, List.mapM_cons, Fresh.bind_apply, Fresh.pure_apply,
      type.renders.shifts_single n, ih, hnext, List.range_succ_eq_map, List.map_cons, List.map_map,
      Function.comp_def, Nat.zero_mul, Nat.add_zero, Nat.succ_eq_add_one]

theorem mapM_resolve_replicate (scope : String) (isStatic : Bool) (member : Member) (r : Nat) :
    (List.replicate (r + 1) member).mapM (Member.resolve scope isStatic) =
      List.replicate (r + 1) <$> member.resolve scope isStatic := by
  induction r with
  | zero => cases h : member.resolve scope isStatic <;> simp [h]
  | succ r ih =>
    rw [List.replicate_succ, List.mapM_cons, ih]
    cases member.resolve scope isStatic <;> rfl

/-- From a later count, a type, a parameter or a member gives the same node with later synthetic ids
and takes as many of them. -/
theorem describe_shifted (n : Nat) :
    (∀ type : TypeExpr,
        type.describe n = ((type.describe 0).1.shifted n, (type.describe 0).2 + n)) ∧
      (∀ param : Param,
        param.describe n = ((param.describe 0).1.shifted n, (param.describe 0).2 + n)) ∧
      (∀ (scope : String) (member : Member), member.describe scope n =
        ((member.describe scope 0).1.shifted n, (member.describe scope 0).2 + n)) ∧
      (∀ (type : TypeExpr) (r : Nat),
        (List.replicate r type).mapM TypeExpr.describe n =
          ((List.range r).map (fun i =>
              (type.describe 0).1.shifted (n + i * (type.describe 0).2)),
            n + r * (type.describe 0).2)) ∧
      ∀ (scope : String) (isStatic : Bool) (member : Member) (r : Nat),
        (List.replicate (r + 1) member).mapM (Member.resolve scope isStatic) =
          List.replicate (r + 1) <$> member.resolve scope isStatic :=
  ⟨fun type => type.renders.shifts_single n, fun param => param.renders.shifts_single n,
    fun scope member => (member.renders scope).shifts_single n,
    fun type r => mapM_describe_replicate type r n, mapM_resolve_replicate⟩

end AmbientCatalog
