import AmbientCatalog.Proofs.Rendering

/-!
# What a description keeps of the source

The leaves of a type are the names and the words in it. A description shows them all, each once and
in their order. What it leaves out are the phrases that count as unused, patterns that cannot be
read, and the type arguments of an import that a type query asks for: the query is named by the
source text of the import, and nothing describes the types in it.
-/

set_option autoImplicit false

namespace AmbientCatalog

def Node.leaves (node : Node) : List (Kind × String) := node.preorder.filterMap Node.leaf?

theorem Node.leaf?_join {node : Node} {join : Join} (h : node.kind = join.kind) :
    node.leaf? = none := by
  cases join <;> simp [leaf?, h, Join.kind]

/-- The nodes of a description show what its phrases show. -/
theorem Renders.leaves {phrases : List Phrase} {nodes : Fresh (List Node)}
    (h : Renders phrases nodes) (n : Nat) :
    (Node.preorders (nodes n).1).filterMap Node.leaf? = phrases.filterMap Phrase.shown? := by
  induction h generalizing n with
  | nothing phrases h =>
    have hnone : phrases.filterMap Phrase.shown? = [] :=
      List.filterMap_eq_nil_iff.mpr (fun phrase hphrase => (h phrase hphrase).1)
    simp [hnone]
  | append h h' ih ih' => simp [ih, ih']
  | @node phrase phrases gs ps rs generics params returns base h hg hp hr hphrases ihg ihp ihr =>
    subst hphrases
    have hleaf : ∀ (id : String) (generics params returns : List Node),
        Node.leaf? { base with
          id := id, generics := generics, params := params, returns := returns } =
          phrase.shown? := fun _ _ _ _ => h.leaf
    cases hshown : phrase.shown? <;>
      simp [Node.preorder_eq, Node.children, hleaf, hshown, ihg, ihp, ihr]
  | join join hleaf hmerges h ih =>
    have hspliced := Node.filterMap_preorders_spliced Node.leaf? join (h.bare (n + 1))
      (fun node hmerged => Node.leaf?_join (Node.mergesInto_iff.mp hmerged).1)
    have hleaf' : ∀ (id : String) (members : List Node),
        Node.leaf? { id := id, kind := join.kind, returns := members } = none :=
      fun _ _ => Node.leaf?_join rfl
    simp [Node.preorder_eq, Node.children, hleaf', hleaf, hspliced, ih]
  | retag tags h ih =>
    exact (Node.filterMap_preorders_retagged Node.leaf? tags (fun _ => rfl) _).trans (ih n)

/-- The description of a type, a parameter or a member shows all names and words of the syntax, each
by a node of its kind and in their order, apart from unused phrases and what stands inside an import
that a type query asks for. -/
theorem describe_leaves (n : Nat) :
    (∀ type : TypeExpr, (type.describe n).1.leaves = type.phrases.filterMap Phrase.shown?) ∧
      (∀ param : Param, (param.describe n).1.leaves = param.phrases.filterMap Phrase.shown?) ∧
      (∀ (scope : String) (member : Member),
        (member.describe scope n).1.leaves = member.phrases.filterMap Phrase.shown?) ∧
      (Param.unreadable.describe n).1.kind = .unknown := by
  have hsingle : ∀ {phrases : List Phrase} {description : Fresh Node},
      Renders phrases (Fresh.single description) →
        (description n).1.leaves = phrases.filterMap Phrase.shown? := by
    intro phrases description h
    simpa [Fresh.single, Node.leaves] using h.leaves n
  exact ⟨fun type => hsingle type.renders, fun param => hsingle param.renders,
    fun scope member => hsingle (member.renders scope), rfl⟩

/-- The type arguments of a queried import are lost: `typeof import("x").y<string>` has a keyword
that no node shows. -/
theorem describe_leaves_queried :
    ¬ ∀ (type : TypeExpr) (n : Nat),
      (type.describe n).1.leaves = type.phrases.filterMap Phrase.leaf? := by
  intro h
  have hquery := h (.query (.imported "import(\"x\").y<string>" [.keyword .string]) []) 0
  revert hquery
  decide

end AmbientCatalog
