import AmbientCatalog.Describe.Classes
import AmbientCatalog.Proofs.Preorder

/-!
# How a description is put together

Every description of type syntax is put together in the same few ways from the descriptions of its
parts. The phrases of the parts follow each other, and so do their nodes; a phrase gives a node with
the nodes of its parts for children; a union or intersection takes over the members of those of its
own kind; and tags are put on finished nodes. What holds of all that can be put together like this
holds of the descriptions of all types, parameters and members.
-/

set_option autoImplicit false

namespace AmbientCatalog

namespace Fresh

variable {α β : Type}

@[simp] theorem pure_apply (a : α) (n : Nat) : (pure a : Fresh α) n = (a, n) := rfl

@[simp] theorem bind_apply (description : Fresh α) (next : α → Fresh β) (n : Nat) :
    (description >>= next) n = next (description n).1 (description n).2 := rfl

@[simp] theorem map_apply (f : α → β) (description : Fresh α) (n : Nat) :
    (f <$> description) n = (f (description n).1, (description n).2) := rfl

@[simp] theorem freshId_apply (n : Nat) : freshId n = (syntheticId n, n + 1) := rfl

def single (description : Fresh Node) : Fresh (List Node) := do
  return [← description]

end Fresh

namespace Node

def identify (base : Node) : Fresh String :=
  if base.isSynthetic then freshId else pure base.id

theorem identify_call (scope : String) :
    ({ id := scope, kind := .callSignature, name := scope } : Node).identify =
      if scope = "" then freshId else pure scope := by
  simp [identify, isSynthetic]

end Node

structure Shows (phrase : Phrase) (base : Node) : Prop where
  leaf : base.leaf? = phrase.shown?
  merges : phrase.merges = 0
  apart : base.kind.isJoin = false

/-- The ways in which descriptions are put together, with the phrases that they describe. -/
inductive Renders : List Phrase → Fresh (List Node) → Prop where
  | nothing (phrases : List Phrase)
      (h : ∀ phrase ∈ phrases, phrase.shown? = none ∧ phrase.merges = 0) :
      Renders phrases (pure [])
  | append {phrases others : List Phrase} {nodes more : Fresh (List Node)}
      (h : Renders phrases nodes) (h' : Renders others more) :
      Renders (phrases ++ others) (do
        let first ← nodes
        let second ← more
        return first ++ second)
  | node {phrase : Phrase} {phrases gs ps rs : List Phrase}
      {generics params returns : Fresh (List Node)} (base : Node) (h : Shows phrase base)
      (hg : Renders gs generics) (hp : Renders ps params) (hr : Renders rs returns)
      (hphrases : phrases = gs ++ ps ++ rs := by simp) :
      Renders (phrase :: phrases) (do
        let id ← base.identify
        let generics ← generics
        let params ← params
        let returns ← returns
        return [{ base with id := id, generics := generics, params := params, returns := returns }])
  | join {phrase : Phrase} {phrases : List Phrase} {members : Fresh (List Node)} (join : Join)
      (hleaf : phrase.shown? = none)
      (hmerges : ∀ n, (members n).1.countP (Node.mergesInto join.kind) = phrase.merges)
      (h : Renders phrases members) :
      Renders (phrase :: phrases) (do
        let id ← freshId
        let members ← members
        return [{ id := id, kind := join.kind, returns := Node.spliced join.kind members }])
  | retag {phrases : List Phrase} {nodes : Fresh (List Node)} (tags : TagSet → TagSet)
      (h : Renders phrases nodes) :
      Renders phrases (do return (← nodes).map (Node.retagged tags))

theorem Renders.bare {phrases : List Phrase} {nodes : Fresh (List Node)} (h : Renders phrases nodes)
    (n : Nat) : ∀ node ∈ (nodes n).1, node.IsBare := by
  induction h generalizing n with
  | nothing phrases h => simp
  | append h h' ih ih' =>
    intro node hnode
    rcases List.mem_append.mp hnode with hnode | hnode
    · exact ih _ node hnode
    · exact ih' _ node hnode
  | node base h hg hp hr hphrases _ _ _ =>
    intro node hnode hjoin
    obtain rfl := List.mem_singleton.mp hnode
    exact absurd (h.apart.symm.trans hjoin) (by simp)
  | join join hleaf hmerges h ih =>
    intro node hnode _
    obtain rfl := List.mem_singleton.mp hnode
    rfl
  | retag tags h ih =>
    intro node hnode
    obtain ⟨before, hbefore, rfl⟩ := List.mem_map.mp hnode
    exact ih n before hbefore

namespace Renders

variable {phrases : List Phrase}

theorem nil : Renders [] (pure []) := .nothing [] (by simp)

theorem unused (types : List TypeExpr) : Renders (types.map .unused) (pure []) := by
  refine .nothing _ (fun phrase h => ?_)
  obtain ⟨type, -, rfl⟩ := List.mem_map.mp h
  exact ⟨rfl, rfl⟩

theorem queried (phrases : List Phrase) : Renders (phrases.map .queried) (pure []) := by
  refine .nothing _ (fun phrase h => ?_)
  obtain ⟨inner, -, rfl⟩ := List.mem_map.mp h
  exact ⟨rfl, rfl⟩

theorem tagged {description : Fresh Node} (h : Renders phrases (Fresh.single description))
    (t : Tag) : Renders phrases (Fresh.single (do return (← description).tagged t)) :=
  h.retag (·.insert t)

end Renders

theorem describeSpliced_eq (kind : Kind) (types : List TypeExpr) :
    describeSpliced kind types = (do return Node.spliced kind (← describeTypes types)) := by
  induction types with
  | nil => rfl
  | cons type types ih =>
    rw [describeSpliced, describeTypes, ih]
    rfl

/-- What is described merges into a union or intersection exactly if the type is joined likewise. -/
theorem TypeExpr.mergesInto_describe (join : Join) (type : TypeExpr) (n : Nat) :
    (type.describe n).1.mergesInto join.kind = type.joinsAs join := by
  cases type with
  | group inner => exact inner.mergesInto_describe join n
  | optional inner => exact Node.mergesInto_tagged join.kind _ .isOptional
  | rest inner => exact Node.mergesInto_tagged join.kind _ .isRest
  | union members =>
    rw [Node.mergesInto_untagged join.kind rfl]
    cases join <;> rfl
  | intersection members =>
    rw [Node.mergesInto_untagged join.kind rfl]
    cases join <;> rfl
  | function signature =>
    cases signature
    exact Node.mergesInto_of_apart join rfl
  | constructor isAbstract signature =>
    cases signature
    exact Node.mergesInto_of_apart join rfl
  | _ => exact Node.mergesInto_of_apart join rfl

theorem countP_describeTypes (join : Join) (types : List TypeExpr) (n : Nat) :
    (describeTypes types n).1.countP (Node.mergesInto join.kind) =
      types.countP (·.joinsAs join) := by
  induction types generalizing n with
  | nil => rfl
  | cons type types ih =>
    simp [describeTypes, List.countP_cons, ih, TypeExpr.mergesInto_describe]

theorem Renders.joined {phrase : Phrase} {types : List TypeExpr} (join : Join)
    (hleaf : phrase.shown? = none) (hmerges : phrase.merges = types.countP (·.joinsAs join))
    (h : Renders (phrasesOfTypes types) (describeTypes types)) :
    Renders (phrase :: phrasesOfTypes types) (Fresh.single (do
      let id ← freshId
      let members ← describeSpliced join.kind types
      return { id := id, kind := join.kind, returns := members })) := by
  rw [describeSpliced_eq]
  exact h.join join hleaf (fun n => (countP_describeTypes join types n).trans hmerges.symm)

open Fresh

theorem Subject.renders : ∀ subject : Subject,
    Renders [.subject subject] (single subject.describe)
  | .this =>
    .node { id := "", kind := .thisType, text := some "this" } ⟨rfl, rfl, rfl⟩ .nil .nil .nil
  | .ident name =>
    .node { id := name, kind := .identifier, name := name } ⟨rfl, rfl, rfl⟩ .nil .nil .nil

mutual
theorem TypeExpr.renders : ∀ type : TypeExpr, Renders type.phrases (single type.describe)
  | .keyword word =>
    .node { id := "", kind := .keyword word, text := some word.text } ⟨rfl, rfl, rfl⟩
      .nil .nil .nil
  | .this =>
    .node { id := "", kind := .thisType, text := some "this" } ⟨rfl, rfl, rfl⟩ .nil .nil .nil
  | .function (.mk generics params result) =>
    .node { id := "", kind := .functionType } ⟨rfl, rfl, rfl⟩
      (renders_typeParams generics) (renders_params params) (renders_maybe result) rfl
  | .constructor isAbstract (.mk generics params result) =>
    .node
      { id := ""
        kind := .constructorType
        tags := TagSet.empty.insertIf isAbstract .isAbstract } ⟨rfl, rfl, rfl⟩
      (renders_typeParams generics) (renders_params params) (renders_maybe result) rfl
  | .reference name args =>
    .node { id := name.text, kind := .typeReference, name := name.text } ⟨rfl, rfl, rfl⟩
      (renders_types args) .nil .nil
  | .query target args =>
    .node { id := "", kind := .typeQuery, name := target.text } ⟨rfl, rfl, rfl⟩
      ((Renders.queried target.phrases).append (renders_types args)) .nil .nil
  | .literalType members =>
    .node { id := "", kind := .typeLiteral } ⟨rfl, rfl, rfl⟩ .nil (renders_members members) .nil
  | .array element =>
    .node { id := "", kind := .arrayType } ⟨rfl, rfl, rfl⟩ .nil .nil element.renders
  | .tuple elements =>
    .node { id := "", kind := .tupleType } ⟨rfl, rfl, rfl⟩ .nil .nil (renders_elements elements)
  | .optional inner => inner.renders.tagged .isOptional
  | .rest inner => inner.renders.tagged .isRest
  | .union members => .joined .union rfl rfl (renders_types members)
  | .intersection members => .joined .intersection rfl rfl (renders_types members)
  | .conditional check bound yes no =>
    .node { id := "", kind := .conditionalType } ⟨rfl, rfl, rfl⟩ .nil
      (check.renders.append (bound.renders.tagged .isHeritage)) (yes.renders.append no.renders)
  | .infer param =>
    .node { id := "", kind := .inferType } ⟨rfl, rfl, rfl⟩ param.renders .nil .nil
  | .group inner => inner.renders
  | .operator op inner =>
    .node { id := "", kind := .typeOperator, text := some op.text } ⟨rfl, rfl, rfl⟩
      .nil .nil inner.renders
  | .indexed target index =>
    .node { id := "", kind := .indexedAccessType } ⟨rfl, rfl, rfl⟩
      .nil .nil (target.renders.append index.renders)
  | .mapped readonly param rename optional value =>
    .node
      { id := ""
        kind := .mappedType
        tags := (TagSet.empty.insertIf (Modifier.adds readonly) .isReadonly).insertIf
          (Modifier.adds optional) .isOptional } ⟨rfl, rfl, rfl⟩
      param.renders (renders_maybe rename) (renders_maybe value)
  | .literal source =>
    .node { id := "", kind := .literalType, text := some source } ⟨rfl, rfl, rfl⟩
      .nil .nil .nil
  | .template source spans =>
    .node { id := "", kind := .templateLiteralType, text := some source } ⟨rfl, rfl, rfl⟩
      .nil .nil (renders_types spans)
  | .predicate asserts subject type =>
    .node
      { id := ""
        kind := .typePredicate
        tags := TagSet.empty.insertIf asserts .isAssertion } ⟨rfl, rfl, rfl⟩
      .nil subject.renders (renders_maybe type)
  | .imported specifier qualifier args =>
    .node
      { id := ""
        kind := .importType
        name := (qualifier.map EntityName.text).getD ""
        text := some (unquote specifier) } ⟨rfl, rfl, rfl⟩
      (renders_types args) .nil .nil

theorem renders_types : ∀ types : List TypeExpr,
    Renders (phrasesOfTypes types) (describeTypes types)
  | [] => .nil
  | type :: types => type.renders.append (renders_types types)

theorem renders_maybe : ∀ type : Option TypeExpr,
    Renders (phrasesOfMaybe type) (describeMaybe type)
  | none => .nil
  | some type => type.renders

theorem TypeParam.renders : ∀ param : TypeParam, Renders param.phrases (single param.describe)
  | .mk name none default =>
    .node { id := name, kind := .typeParameter, name := name } ⟨rfl, rfl, rfl⟩
      .nil .nil (.unused default.toList)
  | .mk name (some bound) none =>
    .node { id := name, kind := .typeParameter, name := name } ⟨rfl, rfl, rfl⟩
      .nil .nil ((bound.renders.tagged .isHeritage).append .nil) rfl
  | .mk name (some bound) (some default) =>
    .node { id := name, kind := .typeParameter, name := name } ⟨rfl, rfl, rfl⟩ .nil .nil
      ((bound.renders.tagged .isHeritage).append (default.renders.tagged .isDefault)) rfl

theorem renders_typeParams : ∀ params : List TypeParam,
    Renders (phrasesOfTypeParams params) (describeTypeParams params)
  | [] => .nil
  | param :: params => param.renders.append (renders_typeParams params)

theorem TupleElement.renders : ∀ element : TupleElement,
    Renders element.phrases (single element.describe)
  | .mk none type => type.renders
  | .mk (some (.named name isOptional)) type =>
    .node
      { id := name
        kind := .parameter
        name := name
        tags := TagSet.empty.insertIf isOptional .isOptional } ⟨rfl, rfl, rfl⟩
      .nil .nil type.renders
  | .mk (some (.rest name)) type =>
    .node { id := name, kind := .parameter, name := name } ⟨rfl, rfl, rfl⟩
      .nil .nil type.renders

theorem renders_elements : ∀ elements : List TupleElement,
    Renders (phrasesOfElements elements) (describeElements elements)
  | [] => .nil
  | element :: elements => element.renders.append (renders_elements elements)

theorem Param.renders : ∀ param : Param, Renders param.phrases (single param.describe)
  | .ident name isOptional type =>
    .node (parameterNode name [] (TagSet.empty.insertIf isOptional .isOptional)) ⟨rfl, rfl, rfl⟩
      .nil .nil (renders_maybe type)
  | .pattern source isOptional type =>
    .node (parameterNode source [] (TagSet.empty.insertIf isOptional .isOptional)) ⟨rfl, rfl, rfl⟩
      .nil .nil (renders_maybe type)
  | .rest target (some type) =>
    .node (parameterNode target.name [] (TagSet.empty.insert .isRest)) ⟨rfl, rfl, rfl⟩
      .nil .nil ((Renders.unused target.annotation.toList).append type.renders)
  | .rest (.ident name type) none =>
    .node (parameterNode name [] (TagSet.empty.insert .isRest)) ⟨rfl, rfl, rfl⟩
      .nil .nil (renders_maybe type)
  | .rest (.pattern source type) none =>
    .node (parameterNode source [] (TagSet.empty.insert .isRest)) ⟨rfl, rfl, rfl⟩
      .nil .nil (.unused type.toList)
  | .withDefault param => param.renders.tagged .isOptional
  | .unreadable => .node { id := "", kind := .unknown } ⟨rfl, rfl, rfl⟩ .nil .nil .nil

theorem renders_params : ∀ params : List Param,
    Renders (phrasesOfParams params) (describeParams params)
  | [] => .nil
  | param :: params => param.renders.append (renders_params params)

theorem Member.renders (scope : String) : ∀ member : Member,
    Renders member.phrases (single (member.describe scope))
  | .property key isOptional isReadonly type =>
    .node
      { id := Name.qualify key.text scope
        kind := .propertySignature
        name := Name.qualify key.text scope
        tags := (TagSet.empty.insertIf isOptional .isOptional).insertIf isReadonly .isReadonly }
      ⟨rfl, rfl, rfl⟩ .nil .nil (renders_maybe type)
  | .method key isOptional (.mk generics params result) =>
    .node
      { id := Name.qualify key.text scope
        kind := .methodSignature
        name := Name.qualify key.text scope
        tags := TagSet.empty.insertIf isOptional .isOptional }
      ⟨rfl, rfl, rfl⟩
      (renders_typeParams generics) (renders_params params) (renders_maybe result) rfl
  | .call (.mk generics params result) => by
    have hshows : Shows (.member (.call (.mk generics params result)))
        { id := scope, kind := .callSignature, name := scope } := ⟨rfl, rfl, rfl⟩
    have h := Renders.node _ hshows (renders_typeParams generics) (renders_params params)
      (renders_maybe result) rfl
    by_cases hscope : scope = ""
    · subst hscope
      exact h
    · rw [Node.identify_call, if_neg hscope] at h
      simp only [Member.describe, if_neg hscope]
      exact h
  | .construct (.mk generics params result) =>
    .node
      { id := Name.qualify constructName scope
        kind := .constructSignature
        name := Name.qualify constructName scope }
      ⟨rfl, rfl, rfl⟩
      (renders_typeParams generics) (renders_params params) (renders_maybe result) rfl
  | .index isReadonly isStatic params type =>
    .node
      { id := Name.qualify indexName scope
        kind := .indexSignature
        name := Name.qualify indexName scope
        tags := (TagSet.empty.insertIf isReadonly .isReadonly).insertIf isStatic .isStatic }
      ⟨rfl, rfl, rfl⟩ .nil (renders_params params) (renders_maybe type)
  | .getter key type =>
    .node
      { id := Name.qualify key.text scope
        kind := .getAccessor
        name := Name.qualify key.text scope }
      ⟨rfl, rfl, rfl⟩ .nil .nil (renders_maybe type)
  | .setter key param =>
    .node
      { id := Name.qualify key.text scope
        kind := .setAccessor
        name := Name.qualify key.text scope }
      ⟨rfl, rfl, rfl⟩ .nil param.renders .nil

theorem renders_members : ∀ members : List Member,
    Renders (phrasesOfMembers members) (describeMembers members)
  | [] => .nil
  | member :: members => (member.renders "").append (renders_members members)
end

theorem Signature.renders (base : Node) (signature : Signature) :
    Renders signature.phrases (do
      let node ← signature.describe base
      return node.children) := by
  obtain ⟨generics, params, result⟩ := signature
  exact ((renders_typeParams generics).append (renders_params params)).append (renders_maybe result)

def ConstructorParam.param : ConstructorParam → Param
  | .plain param => param
  | .property param _ _ => param

theorem ConstructorParam.renders : ∀ param : ConstructorParam,
    Renders param.param.phrases (single param.describe)
  | .plain param => param.renders
  | .property param isReadonly access =>
    param.renders.retag (fun s => accessTags access (s.insertIf isReadonly .isReadonly))

theorem renders_constructorParams : ∀ params : List ConstructorParam,
    Renders (phrasesOfParams (params.map ConstructorParam.param)) (describeConstructorParams params)
  | [] => .nil
  | param :: params => param.renders.append (renders_constructorParams params)

theorem renders_superclass (base : Option Expr) (args : List TypeExpr) :
    ∃ phrases, Renders phrases (describeSuperclass base args) := by
  rw [describeSuperclass]
  cases base.bind Expr.entityText with
  | none => exact ⟨_, .nil⟩
  | some name =>
    have hshows : Shows (.type (.reference (.ident name) args))
        { id := name
          kind := .typeReference
          name := name
          tags := TagSet.empty.insert .isHeritage } :=
      ⟨by simp [Node.leaf?, Phrase.shown?, Phrase.leaf?, EntityName.text, EntityName.parts],
        rfl, rfl⟩
    exact ⟨_, .node _ hshows (renders_types args) .nil .nil rfl⟩

end AmbientCatalog
