import AmbientCatalog.Syntax.Types

/-!
# Declarations and statements

The top level syntax of a declaration file. A statement is known by its start position and by what
it holds: a declaration, perhaps exported, an empty statement, or anything else. Namespaces nest
further statements.
-/

set_option autoImplicit false

namespace AmbientCatalog

structure Position where
  line : Nat
  column : Nat
  deriving DecidableEq, Repr

inductive Access where
  | isPublic
  | isPrivate
  | isProtected
  deriving DecidableEq, Repr

def Access.tag : Access → Tag
  | isPublic => .isPublic
  | isPrivate => .isPrivate
  | isProtected => .isProtected

inductive ConstructorParam where
  | plain (param : Param)
  | property (param : Param) (isReadonly : Bool) (access : Option Access)

inductive MethodForm where
  | method
  | getter
  | setter
  deriving DecidableEq, Repr

structure MemberFlags where
  isStatic : Bool := false
  isReadonly : Bool := false
  isOptional : Bool := false
  isAbstract : Bool := false
  isDeclared : Bool := false
  access : Option Access := none
  deriving DecidableEq, Repr

/-- A member of a class. Private names, static blocks, automatic accessors and stray semicolons
are `silent`: they declare nothing that can be seen from outside. -/
inductive ClassMember where
  | constructor (access : Option Access) (params : List ConstructorParam)
  | method (form : MethodForm) (key : Key) (flags : MemberFlags) (signature : Signature)
  | property (key : Key) (flags : MemberFlags) (type : Option TypeExpr)
  | index (isReadonly isStatic : Bool) (params : List Param) (type : Option TypeExpr)
  | silent

structure ClassDecl where
  name : String
  isAbstract : Bool
  isDeclared : Bool
  generics : List TypeParam
  superclass : Option Expr
  superArgs : List TypeExpr
  members : List ClassMember

structure InterfaceDecl where
  name : String
  bases : List Expr
  members : List Member

structure FunctionDecl where
  name : String
  isDeclared : Bool
  signature : Signature

inductive Declarator where
  | ident (name : String) (type : Option TypeExpr)
  | destructured

structure VariableDecl where
  isConst : Bool
  isDeclared : Bool
  declarators : List Declarator

mutual
/-- A namespace has the parts of its dotted name, and a global block adds to the scope around it. An
outside module is named by a string or has no body, and declares no globals. -/
inductive Decl where
  | functionDecl (decl : FunctionDecl)
  | variableDecl (decl : VariableDecl)
  | interfaceDecl (decl : InterfaceDecl)
  | classDecl (decl : ClassDecl)
  | namespaceDecl (isDeclared : Bool) (parts : List String) (items : List Item)
  | globalBlock (items : List Item)
  | outsideModule
  | aliasDecl (name : String) (type : TypeExpr)
  | enumDecl
  | usingDecl

inductive Content where
  | plain (decl : Decl)
  | exported (decl : Decl)
  | empty
  | other

inductive Item where
  | mk (start : Position) (content : Content)
end

inductive NamespaceBody where
  | block (items : List Item)
  | nested (part : String) (body : NamespaceBody)

def NamespaceBody.flatten (parts : List String) : NamespaceBody → List String × List Item
  | .block items => (parts, items)
  | .nested part body => body.flatten (parts ++ [part])

def Decl.ofNamespace (isDeclared : Bool) (part : String) (body : NamespaceBody) : Decl :=
  let (parts, items) := body.flatten [part]
  .namespaceDecl isDeclared parts items

def Content.decl? : Content → Option Decl
  | .plain decl => some decl
  | .exported decl => some decl
  | .empty => none
  | .other => none

def Item.start : Item → Position
  | .mk start _ => start

def Item.content : Item → Content
  | .mk _ content => content

end AmbientCatalog
