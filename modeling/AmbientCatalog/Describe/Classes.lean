import AmbientCatalog.Describe
import AmbientCatalog.Role

/-!
# From classes to nodes

A class yields a node for itself and one for each member that can be seen from outside. Static
members are named under the class and the others under its prototype.
-/

set_option autoImplicit false

namespace AmbientCatalog

def ClassMember.scope (name : String) (isStatic : Bool) : String :=
  if isStatic then name else Name.qualify Role.prototypeName name

def accessTags (access : Option Access) (tags : TagSet) : TagSet :=
  match access with
  | some access => tags.insert access.tag
  | none => tags

def ConstructorParam.describe : ConstructorParam → Fresh Node
  | .plain param => param.describe
  | .property param isReadonly access => do
    let node ← param.describe
    return { node with tags := accessTags access (node.tags.insertIf isReadonly .isReadonly) }

def describeConstructorParams : List ConstructorParam → Fresh (List Node)
  | [] => return []
  | param :: params => do
    let node ← param.describe
    let nodes ← describeConstructorParams params
    return node :: nodes

def MethodForm.kind : MethodForm → Kind
  | method => .methodDeclaration
  | getter => .getAccessor
  | setter => .setAccessor

def ClassMember.node? (className : String) : ClassMember → Option Node
  | .constructor access params =>
    let name := Name.qualify constructName className
    some
      { id := name
        kind := .classConstructor
        name := name
        params := described (describeConstructorParams params)
        tags := accessTags access TagSet.empty }
  | .method form key flags signature =>
    let name := Name.qualify key.text (scope className flags.isStatic)
    some (described (signature.describe
      { id := name
        kind := form.kind
        name := name
        tags := accessTags flags.access
          (((TagSet.empty.insertIf flags.isStatic .isStatic).insertIf
            flags.isOptional .isOptional).insertIf flags.isAbstract .isAbstract) }))
  | .property key flags type =>
    let name := Name.qualify key.text (scope className flags.isStatic)
    some
      { id := name
        kind := .propertyDeclaration
        name := name
        returns := described (describeMaybe type)
        tags := (accessTags flags.access
          ((((TagSet.empty.insertIf flags.isStatic .isStatic).insertIf
            flags.isReadonly .isReadonly).insertIf flags.isOptional .isOptional).insertIf
            flags.isAbstract .isAbstract)).insertIf flags.isDeclared .isDeclared }
  | .index isReadonly isStatic params type =>
    some (described
      ((Member.index isReadonly isStatic params type).describe (scope className isStatic)))
  | .silent => none

def describeSuperclass (base : Option Expr) (args : List TypeExpr) : Fresh (List Node) :=
  match base.bind Expr.entityText with
  | none => return []
  | some name => do
    let args ← describeTypes args
    return [{
      id := name
      kind := .typeReference
      name := name
      generics := args
      tags := TagSet.empty.insert .isHeritage }]

def ClassDecl.node (name : String) (decl : ClassDecl) : Node :=
  described do
    let generics ← describeTypeParams decl.generics
    let base ← describeSuperclass decl.superclass decl.superArgs
    return {
      id := name
      kind := .classDeclaration
      name := name
      generics := generics
      returns := base
      tags := (TagSet.empty.insertIf decl.isAbstract .isAbstract).insertIf
        decl.isDeclared .isDeclared }

def ClassDecl.nodes (scope : String) (decl : ClassDecl) : List Node :=
  let name := Name.qualify decl.name scope
  decl.node name :: decl.members.filterMap (ClassMember.node? name)

end AmbientCatalog
