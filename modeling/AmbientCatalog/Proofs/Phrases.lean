import AmbientCatalog.Syntax.Types

/-!
# The phrases of a type

A type, read from left to right, is a sequence of phrases: the types, type parameters, labels,
parameters, subjects and members in it, each before what stands inside it. Parentheses and the marks
of optional and rest elements are no phrases of their own, and neither is the default value of a
parameter. All other syntax is listed. Three things are listed as unused, without what stands inside
them: the default of a type parameter that has no bound, the annotation of a pattern under a rest
parameter, and the annotation of a name there if the rest parameter has one too.
-/

set_option autoImplicit false

namespace AmbientCatalog

inductive Phrase where
  | type (type : TypeExpr)
  | typeParam (param : TypeParam)
  | label (label : Label)
  | param (param : Param)
  | subject (subject : Subject)
  | member (member : Member)
  | unused (type : TypeExpr)
  | queried (phrase : Phrase)

def RestTarget.annotation : RestTarget → Option TypeExpr
  | .ident _ type => type
  | .pattern _ type => type

mutual
def TypeExpr.phrases : TypeExpr → List Phrase
  | .keyword word => [.type (.keyword word)]
  | .this => [.type .this]
  | .function signature => .type (.function signature) :: signature.phrases
  | .constructor isAbstract signature =>
    .type (.constructor isAbstract signature) :: signature.phrases
  | .reference name args => .type (.reference name args) :: phrasesOfTypes args
  | .query target args =>
    .type (.query target args) :: (target.phrases.map .queried ++ phrasesOfTypes args)
  | .literalType members => .type (.literalType members) :: phrasesOfMembers members
  | .array element => .type (.array element) :: element.phrases
  | .tuple elements => .type (.tuple elements) :: phrasesOfElements elements
  | .optional inner => inner.phrases
  | .rest inner => inner.phrases
  | .union members => .type (.union members) :: phrasesOfTypes members
  | .intersection members => .type (.intersection members) :: phrasesOfTypes members
  | .conditional check bound yes no =>
    .type (.conditional check bound yes no) ::
      (check.phrases ++ bound.phrases ++ yes.phrases ++ no.phrases)
  | .infer param => .type (.infer param) :: param.phrases
  | .group inner => inner.phrases
  | .operator op inner => .type (.operator op inner) :: inner.phrases
  | .indexed target index => .type (.indexed target index) :: (target.phrases ++ index.phrases)
  | .mapped readonly param rename optional value =>
    .type (.mapped readonly param rename optional value) ::
      (param.phrases ++ phrasesOfMaybe rename ++ phrasesOfMaybe value)
  | .literal source => [.type (.literal source)]
  | .template source spans => .type (.template source spans) :: phrasesOfTypes spans
  | .predicate asserts subject type =>
    .type (.predicate asserts subject type) :: .subject subject :: phrasesOfMaybe type
  | .imported specifier qualifier args =>
    .type (.imported specifier qualifier args) :: phrasesOfTypes args

def phrasesOfTypes : List TypeExpr → List Phrase
  | [] => []
  | type :: types => type.phrases ++ phrasesOfTypes types

def phrasesOfMaybe : Option TypeExpr → List Phrase
  | none => []
  | some type => type.phrases

def QueryTarget.phrases : QueryTarget → List Phrase
  | .entity _ => []
  | .imported _ args => phrasesOfTypes args

def Signature.phrases : Signature → List Phrase
  | .mk generics params result =>
    phrasesOfTypeParams generics ++ phrasesOfParams params ++ phrasesOfMaybe result

def TypeParam.phrases : TypeParam → List Phrase
  | .mk name none default => .typeParam (.mk name none default) :: default.toList.map .unused
  | .mk name (some bound) default =>
    .typeParam (.mk name (some bound) default) :: (bound.phrases ++ phrasesOfMaybe default)

def phrasesOfTypeParams : List TypeParam → List Phrase
  | [] => []
  | param :: params => param.phrases ++ phrasesOfTypeParams params

def TupleElement.phrases : TupleElement → List Phrase
  | .mk none type => type.phrases
  | .mk (some label) type => .label label :: type.phrases

def phrasesOfElements : List TupleElement → List Phrase
  | [] => []
  | element :: elements => element.phrases ++ phrasesOfElements elements

def Param.phrases : Param → List Phrase
  | .ident name isOptional type => .param (.ident name isOptional type) :: phrasesOfMaybe type
  | .pattern source isOptional type =>
    .param (.pattern source isOptional type) :: phrasesOfMaybe type
  | .rest target (some type) =>
    .param (.rest target (some type)) :: (target.annotation.toList.map .unused ++ type.phrases)
  | .rest (.ident name type) none => .param (.rest (.ident name type) none) :: phrasesOfMaybe type
  | .rest (.pattern source type) none =>
    .param (.rest (.pattern source type) none) :: type.toList.map .unused
  | .withDefault param => param.phrases
  | .unreadable => [.param .unreadable]

def phrasesOfParams : List Param → List Phrase
  | [] => []
  | param :: params => param.phrases ++ phrasesOfParams params

def Member.phrases : Member → List Phrase
  | .property key isOptional isReadonly type =>
    .member (.property key isOptional isReadonly type) :: phrasesOfMaybe type
  | .method key isOptional signature =>
    .member (.method key isOptional signature) :: signature.phrases
  | .call signature => .member (.call signature) :: signature.phrases
  | .construct signature => .member (.construct signature) :: signature.phrases
  | .index isReadonly isStatic params type =>
    .member (.index isReadonly isStatic params type) ::
      (phrasesOfParams params ++ phrasesOfMaybe type)
  | .getter key type => .member (.getter key type) :: phrasesOfMaybe type
  | .setter key param => .member (.setter key param) :: param.phrases

def phrasesOfMembers : List Member → List Phrase
  | [] => []
  | member :: members => member.phrases ++ phrasesOfMembers members
end

/-- What a phrase shows by itself: the name of a reference, query, import, type parameter, parameter
or subject, and the text of a keyword or literal, with the kind of node that shows it. -/
def Phrase.leaf? : Phrase → Option (Kind × String)
  | .type (.keyword word) => some (.keyword word, word.text)
  | .type .this => some (.thisType, "this")
  | .type (.reference name _) => some (.typeReference, name.text)
  | .type (.query target _) => some (.typeQuery, target.text)
  | .type (.imported _ qualifier _) =>
    some (.importType, (qualifier.map EntityName.text).getD "")
  | .type (.literal source) => some (.literalType, source)
  | .type (.template source _) => some (.templateLiteralType, source)
  | .type _ => none
  | .typeParam (.mk name _ _) => some (.typeParameter, name)
  | .label (.named name _) => some (.parameter, name)
  | .label (.rest name) => some (.parameter, name)
  | .param (.ident name _ _) => some (.parameter, name)
  | .param (.pattern source _ _) => some (.parameter, source)
  | .param (.rest target _) => some (.parameter, target.name)
  | .param _ => none
  | .subject .this => some (.thisType, "this")
  | .subject (.ident name) => some (.identifier, name)
  | .member _ => none
  | .unused _ => none
  | .queried phrase => phrase.leaf?

def Phrase.shown? : Phrase → Option (Kind × String)
  | .queried _ => none
  | phrase => phrase.leaf?

inductive Join where
  | union
  | intersection
  deriving DecidableEq

namespace Join

def kind : Join → Kind
  | union => .unionType
  | intersection => .intersectionType

def of : Join → List TypeExpr → TypeExpr
  | union => .union
  | intersection => .intersection

end Join

def TypeExpr.joinsAs (join : Join) : TypeExpr → Bool
  | .group inner => inner.joinsAs join
  | .union _ => join = .union
  | .intersection _ => join = .intersection
  | _ => false

def Phrase.merges : Phrase → Nat
  | .type (.union members) => members.countP (·.joinsAs .union)
  | .type (.intersection members) => members.countP (·.joinsAs .intersection)
  | _ => 0

def Phrase.mergesIn : List Phrase → Nat
  | [] => 0
  | phrase :: phrases => phrase.merges + mergesIn phrases

end AmbientCatalog
