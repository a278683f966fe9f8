import AmbientCatalog.Proofs.Naming

/-!
# Moving names from scope to scope

A name that is a scope, or continues it with a dot, is that scope with a tail behind it. To move the
name is to put another scope before the same tail, so a name can be moved over any number of scopes
at once, and back again. Every other name, also one that only looks alike, stays where it is.
-/

set_option autoImplicit false

namespace AmbientCatalog

namespace Name

def Continues (scope name : String) : Prop :=
  name = scope ∨ (scope ++ ".").toList <+: name.toList

instance (scope name : String) : Decidable (Continues scope name) :=
  inferInstanceAs (Decidable (name = scope ∨ (scope ++ ".").toList <+: name.toList))

theorem continues_iff {scope name : String} :
    Continues scope name ↔ ∃ tail, IsTail tail ∧ name = scope ++ tail := by
  constructor
  · rintro (rfl | ⟨rest, hrest⟩)
    · exact ⟨"", .inl rfl, by simp⟩
    · refine ⟨String.ofList ('.' :: rest), .inr ⟨rest, by simp⟩, ?_⟩
      rw [← String.toList_inj, ← hrest]
      simp
  · rintro ⟨tail, rfl | ⟨rest, hrest⟩, rfl⟩
    · exact .inl (by simp)
    · exact .inr ⟨rest, by simp [hrest]⟩

theorem rebase_of_not_continues {source name : String} (h : ¬Continues source name)
    (target : String) : rebase source target name = name := by
  rw [rebase]
  split_ifs
  · rfl
  · split
    · next hrest =>
      have hname := List.isPrefixOf?_eq_some_iff_append_eq.mp hrest
      exact absurd (.inl (String.toList_inj.mp (by simpa using hname.symm))) h
    · next rest hrest =>
      have hname := List.isPrefixOf?_eq_some_iff_append_eq.mp hrest
      exact absurd (.inr ⟨rest, by simp [← hname]⟩) h
    · rfl

theorem Continues.rebase {source name : String} (h : Continues source name) (target : String) :
    Continues target (Name.rebase source target name) := by
  obtain ⟨tail, htail, rfl⟩ := continues_iff.mp h
  exact continues_iff.mpr ⟨tail, htail, rebase_append htail source target⟩

/-- Two moves, the second from where the first one ends, are one. -/
theorem rebase_rebase {source name : String} (h : Continues source name) (middle target : String) :
    rebase middle target (rebase source middle name) = rebase source target name := by
  obtain ⟨tail, htail, rfl⟩ := continues_iff.mp h
  rw [rebase_append htail, rebase_append htail, rebase_append htail]

theorem rebase_self (scope name : String) : rebase scope scope name = name := by
  rw [rebase, if_pos rfl]

theorem rebase_ne_iff {source target name : String} :
    rebase source target name ≠ name ↔ source ≠ target ∧ Continues source name := by
  constructor
  · intro hne
    refine ⟨?_, ?_⟩
    · rintro rfl
      exact hne (rebase_self source name)
    · by_contra hcontinues
      exact hne (rebase_of_not_continues hcontinues target)
  · rintro ⟨hne, hcontinues⟩ heq
    obtain ⟨tail, htail, rfl⟩ := continues_iff.mp hcontinues
    rw [rebase_append htail] at heq
    exact hne ((String.append_left_inj tail).mp heq).symm

end Name

namespace Node

/-- The node is named under a scope: its id and its name continue it, each by itself. -/
def IsUnder (scope : String) (node : Node) : Prop :=
  Name.Continues scope node.id ∧ Name.Continues scope node.name

theorem IsUnder.rebase {source : String} {node : Node} (h : node.IsUnder source)
    (target : String) : (node.rebase source target).IsUnder target :=
  ⟨h.1.rebase target, h.2.rebase target⟩

theorem rebase_self (scope : String) (node : Node) : node.rebase scope scope = node := by
  rw [Node.rebase, Name.rebase_self, Name.rebase_self]
  cases node
  rfl

theorem IsUnder.rebase_rebase {source : String} {node : Node} (h : node.IsUnder source)
    (middle target : String) :
    (node.rebase source middle).rebase middle target = node.rebase source target := by
  simp [Node.rebase, Name.rebase_rebase h.1, Name.rebase_rebase h.2]

/-- Moves a node from one scope to the next along a way, as a member is moved once for every level
of heritage between where it is declared and where it ends up. -/
def rebaseAlong : String → List String → Node → Node
  | _, [], node => node
  | scope, next :: way, node => rebaseAlong next way (node.rebase scope next)

theorem IsUnder.rebaseAlong {source : String} {node : Node} (h : node.IsUnder source)
    (way : List String) :
    node.rebaseAlong source way = node.rebase source (way.getLastD source) := by
  induction way generalizing source node with
  | nil => exact (rebase_self source node).symm
  | cons next way ih =>
    rw [Node.rebaseAlong, ih (h.rebase next), h.rebase_rebase, List.getLastD_cons]

/-- For a node under a scope, moves in a row are one move and a move back restores it, however the
scopes begin each other. A move changes an id or a name exactly if the scopes differ and it
continues the first. -/
theorem rebase_composes (node : Node) (source : String) :
    (node.IsUnder source →
      (∀ middle target, (node.rebase source middle).rebase middle target =
        node.rebase source target) ∧
      (∀ target, (node.rebase source target).rebase target source = node) ∧
      ∀ way, node.rebaseAlong source way = node.rebase source (way.getLastD source)) ∧
    ∀ target,
      ((node.rebase source target).id ≠ node.id ↔
        source ≠ target ∧ Name.Continues source node.id) ∧
      ((node.rebase source target).name ≠ node.name ↔
        source ≠ target ∧ Name.Continues source node.name) ∧
      (∀ tail, Name.IsTail tail →
        (node.id = source ++ tail → (node.rebase source target).id = target ++ tail) ∧
        (node.name = source ++ tail → (node.rebase source target).name = target ++ tail)) ∧
      ∃ id name, node.rebase source target = { node with id := id, name := name } := by
  refine ⟨fun h => ⟨h.rebase_rebase, fun target => ?_, h.rebaseAlong⟩, fun target =>
    ⟨Name.rebase_ne_iff, Name.rebase_ne_iff, fun tail htail => ⟨fun hid => ?_, fun hname => ?_⟩,
      _, _, rfl⟩⟩
  · rw [h.rebase_rebase, rebase_self]
  · rw [Node.rebase, hid, Name.rebase_append htail]
  · rw [Node.rebase, hname, Name.rebase_append htail]

def arrayCall : Node :=
  { id := "Array"
    kind := .callSignature
    name := "Array"
    returns := [{ id := "Array", kind := .typeReference, name := "Array" }] }

theorem rebase_composes_array :
    arrayCall.IsUnder "Array" ∧
      (arrayCall.rebase "Array" "").rebase "" "ArrayBuffer" =
        arrayCall.rebase "Array" "ArrayBuffer" ∧
      (arrayCall.rebase "Array" "").rebase "" "Array" = arrayCall ∧
      (arrayCall.rebase "Array" "List").id = "List" := by
  have hunder : arrayCall.IsUnder "Array" := ⟨.inl rfl, .inl rfl⟩
  obtain ⟨hmoves, hchanges⟩ := rebase_composes arrayCall "Array"
  obtain ⟨hcomposes, hback, -⟩ := hmoves hunder
  exact ⟨hunder, hcomposes "" "ArrayBuffer", hback "",
    ((hchanges "List").2.2.1 "" (.inl rfl)).1 rfl⟩

end Node

end AmbientCatalog
