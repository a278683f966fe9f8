import AmbientCatalog.Node

/-!
# Types, parameters and members

The syntax of types as a declaration file writes them. Leaves that are shown by their source text
(literals, patterns, computed keys) carry that text, so a tree can be described without the file
it was read from.
-/

set_option autoImplicit false

namespace AmbientCatalog

inductive EntityName where
  | ident (name : String)
  | qualified (left : EntityName) (right : String)

def EntityName.parts : EntityName → List String
  | .ident name => [name]
  | .qualified left right => left.parts ++ [right]

def EntityName.text (name : EntityName) : String := ".".intercalate name.parts

inductive Expr where
  | ident (name : String)
  | member (target : Expr) (name : String)
  | group (inner : Expr)
  | instantiated (target : Expr)
  | other

def Expr.entityText : Expr → Option String
  | .ident name => some name
  | .member target name => (entityText target).map (fun text => text ++ "." ++ name)
  | .group inner => entityText inner
  | .instantiated _ => none
  | .other => none

def Expr.withoutArgs : Expr → Expr
  | .instantiated target => target
  | e => e

/-- The key of a member. Keys that are not names carry their source text, which is all there is to
numbers and private names; that of a computed key is the text between its brackets. -/
inductive Key where
  | ident (name : String)
  | string (source : String)
  | verbatim (source : String)
  | computed (source : String)
  deriving DecidableEq, Repr

def isQuote (c : Char) : Bool := c = '"' || c = '\''

def unquote (source : String) : String :=
  String.ofList (((source.toList.dropWhile isQuote).reverse.dropWhile isQuote).reverse)

def Key.text : Key → String
  | .ident name => name
  | .string source => unquote source
  | .verbatim source => source
  | .computed source => "[" ++ source ++ "]"

def Key.isPrivate : Key → Bool
  | .verbatim source => source.toList.head? = some '#'
  | _ => false

def Key.isConstructor : Key → Bool
  | .ident name => name = "constructor"
  | .string source => unquote source = "constructor"
  | _ => false

inductive TypeOperator where
  | keyof
  | unique
  | readonly
  deriving DecidableEq, Repr

def TypeOperator.text : TypeOperator → String
  | keyof => "keyof"
  | unique => "unique"
  | readonly => "readonly"

inductive Modifier where
  | plain
  | plus
  | minus
  deriving DecidableEq, Repr

def Modifier.adds : Option Modifier → Bool
  | some .plain => true
  | some .plus => true
  | some .minus => false
  | none => false

inductive Subject where
  | this
  | ident (name : String)
  deriving DecidableEq, Repr

inductive Label where
  | named (name : String) (isOptional : Bool)
  | rest (name : String)
  deriving DecidableEq, Repr

mutual
inductive TypeExpr where
  | keyword (word : Keyword)
  | this
  | function (signature : Signature)
  | constructor (isAbstract : Bool) (signature : Signature)
  | reference (name : EntityName) (args : List TypeExpr)
  | query (target : QueryTarget) (args : List TypeExpr)
  | literalType (members : List Member)
  | array (element : TypeExpr)
  | tuple (elements : List TupleElement)
  | optional (inner : TypeExpr)
  | rest (inner : TypeExpr)
  | union (members : List TypeExpr)
  | intersection (members : List TypeExpr)
  | conditional (check bound yes no : TypeExpr)
  | infer (param : TypeParam)
  | group (inner : TypeExpr)
  | operator (op : TypeOperator) (inner : TypeExpr)
  | indexed (target index : TypeExpr)
  | mapped (readonly : Option Modifier) (param : TypeParam) (rename : Option TypeExpr)
      (optional : Option Modifier) (value : Option TypeExpr)
  | literal (source : String)
  | template (source : String) (spans : List TypeExpr)
  | predicate (asserts : Bool) (subject : Subject) (type : Option TypeExpr)
  | imported (specifier : String) (qualifier : Option EntityName) (args : List TypeExpr)

/-- What a type query asks for: a dotted name, or an import. An import is given by its source text,
which takes in the type arguments written inside it. -/
inductive QueryTarget where
  | entity (name : EntityName)
  | imported (source : String) (args : List TypeExpr)

inductive Signature where
  | mk (generics : List TypeParam) (params : List Param) (result : Option TypeExpr)

inductive TypeParam where
  | mk (name : String) (bound : Option TypeExpr) (default : Option TypeExpr)

inductive TupleElement where
  | mk (label : Option Label) (type : TypeExpr)

/-- A parameter. A pattern carries its source text, which takes in its annotation; a parameter
with a default value holds the parameter without it. -/
inductive Param where
  | ident (name : String) (isOptional : Bool) (type : Option TypeExpr)
  | pattern (source : String) (isOptional : Bool) (type : Option TypeExpr)
  | rest (target : RestTarget) (type : Option TypeExpr)
  | withDefault (param : Param)
  | unreadable

inductive RestTarget where
  | ident (name : String) (type : Option TypeExpr)
  | pattern (source : String) (type : Option TypeExpr)

inductive Member where
  | property (key : Key) (isOptional isReadonly : Bool) (type : Option TypeExpr)
  | method (key : Key) (isOptional : Bool) (signature : Signature)
  | call (signature : Signature)
  | construct (signature : Signature)
  | index (isReadonly isStatic : Bool) (params : List Param) (type : Option TypeExpr)
  | getter (key : Key) (type : Option TypeExpr)
  | setter (key : Key) (param : Param)
end

def QueryTarget.text : QueryTarget → String
  | .entity name => name.text
  | .imported source _ => source

def Signature.result : Signature → Option TypeExpr
  | .mk _ _ result => result

def RestTarget.name : RestTarget → String
  | .ident name _ => name
  | .pattern source _ => source

def Member.isConstruct : Member → Bool
  | .construct _ => true
  | _ => false

def TypeExpr.simpleName? : TypeExpr → Option String
  | .reference name _ => some name.text
  | .keyword word => some word.text
  | _ => none

end AmbientCatalog
