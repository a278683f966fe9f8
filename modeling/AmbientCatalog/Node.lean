import AmbientCatalog.Name

/-!
# Catalog nodes

A node describes one declaration or one type position: what kind of thing it is, its name, its
result, parameter and generic children, the source text of a leaf, and a set of tags. Nodes own
their children. A node whose id starts with `__placeholder` is a scratch result that is never
entered into a catalog.
-/

set_option autoImplicit false

namespace AmbientCatalog

inductive Tag where
  | isStatic
  | isReadonly
  | isOptional
  | isRest
  | isHeritage
  | isDefault
  | isAbstract
  | isAssertion
  | isPublic
  | isPrivate
  | isProtected
  | isDeclared
  deriving DecidableEq, Repr

namespace Tag

def all : List Tag :=
  [.isStatic, .isReadonly, .isOptional, .isRest, .isHeritage, .isDefault, .isAbstract,
    .isAssertion, .isPublic, .isPrivate, .isProtected, .isDeclared]

def index : Tag → Nat
  | isStatic => 0
  | isReadonly => 1
  | isOptional => 2
  | isRest => 3
  | isHeritage => 4
  | isDefault => 5
  | isAbstract => 6
  | isAssertion => 7
  | isPublic => 8
  | isPrivate => 9
  | isProtected => 10
  | isDeclared => 11

/-- The text written for a tag. The ambient `declare` marker is kept on nodes and never written. -/
def text : Tag → Option String
  | isStatic => some "static"
  | isReadonly => some "readonly"
  | isOptional => some "optional"
  | isRest => some "rest"
  | isHeritage => some "extends"
  | isDefault => some "default"
  | isAbstract => some "abstract"
  | isAssertion => some "asserts"
  | isPublic => some "public"
  | isPrivate => some "private"
  | isProtected => some "protected"
  | isDeclared => none

def ofText? (s : String) : Option Tag :=
  all.find? (fun t => t.text == some s)

end Tag

structure TagSet where
  bits : BitVec 12
  deriving DecidableEq, Repr

namespace TagSet

def empty : TagSet := ⟨0⟩

def contains (s : TagSet) (t : Tag) : Bool := s.bits.getLsbD t.index

def insert (s : TagSet) (t : Tag) : TagSet := ⟨s.bits ||| BitVec.twoPow 12 t.index⟩

def insertIf (s : TagSet) (b : Bool) (t : Tag) : TagSet := if b then s.insert t else s

def insertAll (s : TagSet) (ts : List Tag) : TagSet := ts.foldl insert s

def isEmpty (s : TagSet) : Bool := s == empty

def toList (s : TagSet) : List Tag := Tag.all.filter s.contains

def ofList (ts : List Tag) : TagSet := empty.insertAll ts

end TagSet

inductive Keyword where
  | any
  | unknown
  | number
  | object
  | boolean
  | bigint
  | string
  | symbol
  | void
  | undefined
  | null
  | never
  | intrinsic
  deriving DecidableEq, Repr

namespace Keyword

def all : List Keyword :=
  [.any, .unknown, .number, .object, .boolean, .bigint, .string, .symbol, .void, .undefined,
    .null, .never, .intrinsic]

def text : Keyword → String
  | any => "any"
  | unknown => "unknown"
  | number => "number"
  | object => "object"
  | boolean => "boolean"
  | bigint => "bigint"
  | string => "string"
  | symbol => "symbol"
  | void => "void"
  | undefined => "undefined"
  | null => "null"
  | never => "never"
  | intrinsic => "intrinsic"

def kindText : Keyword → String
  | any => "AnyKeyword"
  | unknown => "UnknownKeyword"
  | number => "NumberKeyword"
  | object => "ObjectKeyword"
  | boolean => "BooleanKeyword"
  | bigint => "BigIntKeyword"
  | string => "StringKeyword"
  | symbol => "SymbolKeyword"
  | void => "VoidKeyword"
  | undefined => "UndefinedKeyword"
  | null => "NullKeyword"
  | never => "NeverKeyword"
  | intrinsic => "IntrinsicKeyword"

end Keyword

inductive Kind where
  | arrayType
  | unionType
  | intersectionType
  | tupleType
  | mappedType
  | conditionalType
  | indexedAccessType
  | typeOperator
  | typeLiteral
  | functionType
  | constructorType
  | typeReference
  | typeQuery
  | typePredicate
  | templateLiteralType
  | inferType
  | importType
  | literalType
  | thisType
  | identifier
  | parameter
  | typeParameter
  | propertySignature
  | methodSignature
  | indexSignature
  | constructSignature
  | callSignature
  | getAccessor
  | setAccessor
  | classConstructor
  | propertyDeclaration
  | methodDeclaration
  | functionDeclaration
  | variableDeclaration
  | interfaceDeclaration
  | moduleDeclaration
  | classDeclaration
  | keyword (word : Keyword)
  | unknown
  deriving DecidableEq, Repr

namespace Kind

def all : List Kind :=
  [.arrayType, .unionType, .intersectionType, .tupleType, .mappedType, .conditionalType,
    .indexedAccessType, .typeOperator, .typeLiteral, .functionType, .constructorType,
    .typeReference, .typeQuery, .typePredicate, .templateLiteralType, .inferType, .importType,
    .literalType, .thisType, .identifier, .parameter, .typeParameter, .propertySignature,
    .methodSignature, .indexSignature, .constructSignature, .callSignature, .getAccessor,
    .setAccessor, .classConstructor, .propertyDeclaration, .methodDeclaration,
    .functionDeclaration, .variableDeclaration, .interfaceDeclaration, .moduleDeclaration,
    .classDeclaration, .unknown] ++ Keyword.all.map .keyword

def text : Kind → String
  | arrayType => "ArrayType"
  | unionType => "UnionType"
  | intersectionType => "IntersectionType"
  | tupleType => "TupleType"
  | mappedType => "MappedType"
  | conditionalType => "ConditionalType"
  | indexedAccessType => "IndexedAccessType"
  | typeOperator => "TypeOperator"
  | typeLiteral => "TypeLiteral"
  | functionType => "FunctionType"
  | constructorType => "ConstructorType"
  | typeReference => "TypeReference"
  | typeQuery => "TypeQuery"
  | typePredicate => "TypePredicate"
  | templateLiteralType => "TemplateLiteralType"
  | inferType => "InferType"
  | importType => "ImportType"
  | literalType => "LiteralType"
  | thisType => "ThisType"
  | identifier => "Identifier"
  | parameter => "Parameter"
  | typeParameter => "TypeParameter"
  | propertySignature => "PropertySignature"
  | methodSignature => "MethodSignature"
  | indexSignature => "IndexSignature"
  | constructSignature => "ConstructSignature"
  | callSignature => "CallSignature"
  | getAccessor => "GetAccessor"
  | setAccessor => "SetAccessor"
  | classConstructor => "Constructor"
  | propertyDeclaration => "PropertyDeclaration"
  | methodDeclaration => "MethodDeclaration"
  | functionDeclaration => "FunctionDeclaration"
  | variableDeclaration => "VariableDeclaration"
  | interfaceDeclaration => "InterfaceDeclaration"
  | moduleDeclaration => "ModuleDeclaration"
  | classDeclaration => "ClassDeclaration"
  | keyword word => word.kindText
  | unknown => "Unknown"

def ofText? (s : String) : Option Kind := all.find? (fun k => k.text == s)

end Kind

structure Node where
  id : String
  kind : Kind
  name : String := ""
  returns : List Node := []
  params : List Node := []
  generics : List Node := []
  text : Option String := none
  tags : TagSet := TagSet.empty

namespace Node

def tagged (node : Node) (t : Tag) : Node := { node with tags := node.tags.insert t }

/-- Ids that start like this mark nodes that are never entered into a catalog. -/
def placeholderId : String := "__placeholder"

def placeholder (name : String) : Node :=
  { id := placeholderId ++ ":" ++ name, kind := .interfaceDeclaration }

def isPlaceholder (node : Node) : Bool := placeholderId.toList.isPrefixOf node.id.toList

/-- Moves a member from under `source` to under `target`. The id and the name are moved, each by
itself; type positions keep the names they were declared with. -/
def rebase (source target : String) (node : Node) : Node :=
  { node with
    id := Name.rebase source target node.id
    name := Name.rebase source target node.name }

end Node

end AmbientCatalog
