import AmbientCatalog.Syntax.Declarations

/-!
# From types to nodes

Every piece of type syntax is described by a node. Nodes without a name of their own get ids `_0`,
`_1`, … in the order in which they are reached, so the id of a node is taken before its children
are described. The description is total and looks at nothing but the syntax at hand.
-/

set_option autoImplicit false

namespace AmbientCatalog

abbrev Fresh := StateM Nat

def syntheticId (n : Nat) : String := "_" ++ n.repr

def freshId : Fresh String := fun n => (syntheticId n, n + 1)

def indexName : String := "__index"

def constructName : String := "new"

def unknownNode : Fresh Node := do
  return { id := ← freshId, kind := .unknown }

def thisNode : Fresh Node := do
  return { id := ← freshId, kind := .thisType, text := some "this" }

def parameterNode (name : String) (type : List Node) (tags : TagSet) : Node :=
  { id := name, kind := .parameter, name := name, returns := type, tags := tags }

/-- A union or intersection takes over the members of an untagged member of its own kind. -/
def spliceInto (kind : Kind) (member : Node) (members : List Node) : List Node :=
  if member.kind = kind ∧ member.tags.isEmpty then member.returns ++ members
  else member :: members

def Subject.describe : Subject → Fresh Node
  | .this => thisNode
  | .ident name => return { id := name, kind := .identifier, name := name }

def labelled : Option Label → Node → Node
  | none, type => type
  | some (.named name isOptional), type =>
    parameterNode name [type] (TagSet.empty.insertIf isOptional .isOptional)
  | some (.rest name), type => parameterNode name [type] TagSet.empty

mutual
def TypeExpr.describe : TypeExpr → Fresh Node
  | .keyword word => do
    return { id := ← freshId, kind := .keyword word, text := some word.text }
  | .this => thisNode
  | .function signature => do
    let id ← freshId
    signature.describe { id := id, kind := .functionType }
  | .constructor isAbstract signature => do
    let id ← freshId
    signature.describe
      { id := id
        kind := .constructorType
        tags := TagSet.empty.insertIf isAbstract .isAbstract }
  | .reference name args => do
    let args ← describeTypes args
    return { id := name.text, kind := .typeReference, name := name.text, generics := args }
  | .query target args => do
    let id ← freshId
    let args ← describeTypes args
    return { id := id, kind := .typeQuery, name := target.text, generics := args }
  | .literalType members => do
    let id ← freshId
    let members ← describeMembers members
    return { id := id, kind := .typeLiteral, params := members }
  | .array element => do
    let id ← freshId
    let element ← element.describe
    return { id := id, kind := .arrayType, returns := [element] }
  | .tuple elements => do
    let id ← freshId
    let elements ← describeElements elements
    return { id := id, kind := .tupleType, returns := elements }
  | .optional inner => do
    return (← inner.describe).tagged .isOptional
  | .rest inner => do
    return (← inner.describe).tagged .isRest
  | .union members => do
    let id ← freshId
    let members ← describeSpliced .unionType members
    return { id := id, kind := .unionType, returns := members }
  | .intersection members => do
    let id ← freshId
    let members ← describeSpliced .intersectionType members
    return { id := id, kind := .intersectionType, returns := members }
  | .conditional check bound yes no => do
    let id ← freshId
    let check ← check.describe
    let bound ← bound.describe
    let yes ← yes.describe
    let no ← no.describe
    return {
      id := id
      kind := .conditionalType
      params := [check, bound.tagged .isHeritage]
      returns := [yes, no] }
  | .infer param => do
    let id ← freshId
    let param ← param.describe
    return { id := id, kind := .inferType, generics := [param] }
  | .group inner => inner.describe
  | .operator op inner => do
    let id ← freshId
    let inner ← inner.describe
    return { id := id, kind := .typeOperator, text := some op.text, returns := [inner] }
  | .indexed target index => do
    let id ← freshId
    let target ← target.describe
    let index ← index.describe
    return { id := id, kind := .indexedAccessType, returns := [target, index] }
  | .mapped readonly param rename optional value => do
    let id ← freshId
    let param ← param.describe
    let rename ← describeMaybe rename
    let value ← describeMaybe value
    return {
      id := id
      kind := .mappedType
      generics := [param]
      params := rename
      returns := value
      tags := (TagSet.empty.insertIf (Modifier.adds readonly) .isReadonly).insertIf
        (Modifier.adds optional) .isOptional }
  | .literal source => do
    return { id := ← freshId, kind := .literalType, text := some source }
  | .template source spans => do
    let id ← freshId
    let spans ← describeTypes spans
    return { id := id, kind := .templateLiteralType, text := some source, returns := spans }
  | .predicate asserts subject type => do
    let id ← freshId
    let subject ← subject.describe
    let type ← describeMaybe type
    return {
      id := id
      kind := .typePredicate
      params := [subject]
      returns := type
      tags := TagSet.empty.insertIf asserts .isAssertion }
  | .imported specifier qualifier args => do
    let id ← freshId
    let args ← describeTypes args
    return {
      id := id
      kind := .importType
      name := (qualifier.map EntityName.text).getD ""
      text := some (unquote specifier)
      generics := args }

def describeTypes : List TypeExpr → Fresh (List Node)
  | [] => return []
  | type :: types => do
    let node ← type.describe
    let nodes ← describeTypes types
    return node :: nodes

def describeSpliced (kind : Kind) : List TypeExpr → Fresh (List Node)
  | [] => return []
  | type :: types => do
    let node ← type.describe
    let nodes ← describeSpliced kind types
    return spliceInto kind node nodes

def describeMaybe : Option TypeExpr → Fresh (List Node)
  | none => return []
  | some type => do
    let node ← type.describe
    return [node]

def Signature.describe (base : Node) : Signature → Fresh Node
  | .mk generics params result => do
    let generics ← describeTypeParams generics
    let params ← describeParams params
    let result ← describeMaybe result
    return { base with generics := generics, params := params, returns := result }

def TypeParam.describe : TypeParam → Fresh Node
  -- The default is described only beside a bound.
  | .mk name none _ => return { id := name, kind := .typeParameter, name := name }
  | .mk name (some bound) none => do
    let bound ← bound.describe
    return {
      id := name, kind := .typeParameter, name := name, returns := [bound.tagged .isHeritage] }
  | .mk name (some bound) (some default) => do
    let bound ← bound.describe
    let default ← default.describe
    return {
      id := name
      kind := .typeParameter
      name := name
      returns := [bound.tagged .isHeritage, default.tagged .isDefault] }

def describeTypeParams : List TypeParam → Fresh (List Node)
  | [] => return []
  | param :: params => do
    let node ← param.describe
    let nodes ← describeTypeParams params
    return node :: nodes

def TupleElement.describe : TupleElement → Fresh Node
  | .mk label type => do
    let type ← type.describe
    return labelled label type

def describeElements : List TupleElement → Fresh (List Node)
  | [] => return []
  | element :: elements => do
    let node ← element.describe
    let nodes ← describeElements elements
    return node :: nodes

def Param.describe : Param → Fresh Node
  | .ident name isOptional type => do
    let type ← describeMaybe type
    return parameterNode name type (TagSet.empty.insertIf isOptional .isOptional)
  | .pattern source isOptional type => do
    let type ← describeMaybe type
    return parameterNode source type (TagSet.empty.insertIf isOptional .isOptional)
  -- The annotation behind the dots wins over that of the name it collects into.
  | .rest target (some type) => do
    let type ← type.describe
    return parameterNode target.name [type] (TagSet.empty.insert .isRest)
  | .rest (.ident name type) none => do
    let type ← describeMaybe type
    return parameterNode name type (TagSet.empty.insert .isRest)
  | .rest (.pattern source _) none => do
    return parameterNode source [] (TagSet.empty.insert .isRest)
  | .withDefault param => do
    return (← param.describe).tagged .isOptional
  | .unreadable => unknownNode

def describeParams : List Param → Fresh (List Node)
  | [] => return []
  | param :: params => do
    let node ← param.describe
    let nodes ← describeParams params
    return node :: nodes

/-- A member named under a scope. In an anonymous type literal the scope is empty, and a call
signature, which is named by its scope alone, then takes a synthetic id. -/
def Member.describe (scope : String) : Member → Fresh Node
  | .property key isOptional isReadonly type => do
    let name := Name.qualify key.text scope
    let type ← describeMaybe type
    return {
      id := name
      kind := .propertySignature
      name := name
      returns := type
      tags := (TagSet.empty.insertIf isOptional .isOptional).insertIf isReadonly .isReadonly }
  | .method key isOptional signature =>
    let name := Name.qualify key.text scope
    signature.describe
      { id := name
        kind := .methodSignature
        name := name
        tags := TagSet.empty.insertIf isOptional .isOptional }
  | .call signature => do
    let id ← if scope = "" then freshId else pure scope
    signature.describe { id := id, kind := .callSignature, name := scope }
  | .construct signature =>
    let name := Name.qualify constructName scope
    signature.describe { id := name, kind := .constructSignature, name := name }
  | .index isReadonly isStatic params type => do
    let name := Name.qualify indexName scope
    let params ← describeParams params
    let type ← describeMaybe type
    return {
      id := name
      kind := .indexSignature
      name := name
      params := params
      returns := type
      tags := (TagSet.empty.insertIf isReadonly .isReadonly).insertIf isStatic .isStatic }
  | .getter key type => do
    let name := Name.qualify key.text scope
    let type ← describeMaybe type
    return { id := name, kind := .getAccessor, name := name, returns := type }
  | .setter key param => do
    let name := Name.qualify key.text scope
    let param ← param.describe
    return { id := name, kind := .setAccessor, name := name, params := [param] }

def describeMembers : List Member → Fresh (List Node)
  | [] => return []
  | member :: members => do
    let node ← member.describe ""
    let nodes ← describeMembers members
    return node :: nodes
end

def described {α : Type} (description : Fresh α) : α := (description 0).1

end AmbientCatalog
