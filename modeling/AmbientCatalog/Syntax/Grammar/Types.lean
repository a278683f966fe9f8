import AmbientCatalog.Syntax.Grammar.Bindings

/-!
# The grammar of types

Types, type parameters, type arguments and the members of interfaces and type literals.
-/

set_option autoImplicit false

namespace AmbientCatalog.Syntax

open AmbientCatalog.Syntax.Parser

namespace Grammar

def typeArgs (g : Grammar) : Parser (List TypeExpr) := do
  expect "<"
  commaListTo ">" g.type

def maybeTypeArgs (g : Grammar) : Parser (List TypeExpr) := do
  if (← isSign "<") && !(← afterNewline) then g.typeArgs else return []

def typeParamModifier : Parser (Option Unit) := do
  match ← token with
  | .word word =>
    if ["const", "in", "out"].contains word && isName (← peek).1 then
      advance
      return some ()
    else return none
  | _ => return none

def typeParam (g : Grammar) : Parser TypeParam := do
  let _ ← many typeParamModifier
  let name ← Parser.name
  let bound ← if ← eatWord "extends" then some <$> g.type else pure none
  let default ← if ← eat "=" then some <$> g.type else pure none
  return .mk name bound default

def typeParams (g : Grammar) : Parser (List TypeParam) := do
  expect "<"
  commaListTo ">" g.typeParam

def maybeTypeParams (g : Grammar) : Parser (List TypeParam) := do
  if (← typed) && (← isSign "<") then g.typeParams else return []

def entityName : Parser EntityName := do
  let first ← anyWord
  extend (fun left => do
    if ← eat "." then return some (.qualified left (← anyWord)) else return none) (.ident first)

def keyword? (word : String) : Option Keyword :=
  Keyword.all.find? (fun k => k.text = word && k ≠ .intrinsic)

def predicateType (g : Grammar) : Parser (Option TypeExpr) := do
  if (← isWord "is") && !(← afterNewline) then
    advance
    return some (← g.type)
  else return none

def thisType (g : Grammar) : Parser TypeExpr := do
  expectWord "this"
  match ← g.predicateType with
  | some type => return .predicate false .this (some type)
  | none => return .this

def assertsThis (g : Grammar) : Parser TypeExpr := do
  expectWord "asserts"
  expectWord "this"
  return .predicate true .this (← g.predicateType)

def typeReference (g : Grammar) : Parser TypeExpr := do
  let name ← entityName
  return .reference name (← g.maybeTypeArgs)

def importOptions (g : Grammar) : Parser Unit := do
  expect "\x7b"
  expectWord "with"
  expect ":"
  need (← isSign "\x7b")
  let _ ← g.assignment
  let _ ← eat ","
  expect "\x7d"

def importParts (g : Grammar) : Parser (String × Option EntityName × List TypeExpr) := do
  expectWord "import"
  expect "("
  let c ← cursor
  -- Any one token can stand for the string.
  advance
  let specifier ← sourceSince c
  if ← eat "," then
    if ← isSign "\x7b" then g.importOptions
  expect ")"
  let qualifier ← if ← eat "." then some <$> entityName else pure none
  return (specifier, qualifier, ← g.maybeTypeArgs)

def importType (g : Grammar) : Parser TypeExpr := do
  let (specifier, qualifier, args) ← g.importParts
  return .imported specifier qualifier args

def typeQuery (g : Grammar) : Parser TypeExpr := do
  expectWord "typeof"
  let c ← cursor
  let target ← do
    if ← isWord "import" then
      let (_, _, args) ← g.importParts
      pure (QueryTarget.imported (← sourceSince c) args)
    else pure (QueryTarget.entity (← entityName))
  return .query target (← g.maybeTypeArgs)

def tupleLabel : Parser Label := do
  if ← eat "..." then
    let name ← anyWord
    let _ ← eat "?"
    expect ":"
    return .rest name
  else
    let name ← anyWord
    let isOptional ← eat "?"
    expect ":"
    return .named name isOptional

def tupleElement (g : Grammar) : Parser TupleElement := do
  let label ← attempt tupleLabel
  if ← eat "..." then
    return .mk label (.rest (← g.type))
  else
    let type ← g.type
    if ← eat "?" then return .mk label (.optional type) else return .mk label type

def signOf? (plus minus plain : Bool) : Option Modifier :=
  if plus then some .plus else if minus then some .minus else if plain then some .plain else none

def startsMapped : Parser Bool := ahead do
  expect "\x7b"
  if ← (eat "+" <||> eat "-") then isWord "readonly"
  else
    if (← isWord "readonly") && (← peek).1 = .sign "[" then advance
    expect "["
    let _ ← anyWord
    isWord "in"

def mappedType (g : Grammar) : Parser TypeExpr := do
  expect "\x7b"
  let plus ← eat "+"
  let minus ← eat "-"
  let readonly ← eatWord "readonly"
  expect "["
  let name ← anyWord
  expectWord "in"
  let bound ← g.type
  let rename ← if ← eatWord "as" then some <$> g.type else pure none
  expect "]"
  let more ← eat "+"
  let less ← eat "-"
  let optional ← eat "?"
  need (optional || !(more || less))
  let value ← g.annotation
  semicolon
  expect "\x7d"
  return .mapped (signOf? plus minus readonly) (.mk name (some bound) none) rename
    (signOf? more less optional) value

def memberEnd : Parser Unit := do
  if !(← eat ",") then semicolon

def resultType (g : Grammar) (conditional : Bool) : Parser TypeExpr := do
  let asserting := (← isWord "asserts") && isName (← peek).1 && !(← peek).2
  let next ← if asserting then (fun (c : Cursor) => c.next) <$> cursor else cursor
  let testing := isName next.token && next.next.token = .word "is" && !next.next.newline
  if asserting || testing then
    if asserting then advance
    let subject ← anyWord
    return .predicate asserting (.ident subject) (← g.predicateType)
  else g.typeIn conditional

def resultAnnotation (g : Grammar) : Parser (Option TypeExpr) := do
  if ← (typed <&&> eat ":") then some <$> g.resultType true else return none

def signature (g : Grammar) : Parser Signature := do
  let generics ← g.maybeTypeParams
  let params ← g.signatureParams
  return .mk generics params (← g.resultAnnotation)

def atSignature : Parser Bool := do
  return (← isSign "(") || (← isSign "<")

def startsIndex : Parser Bool := ahead do
  expect "["
  let _ ← Parser.name
  -- A comma here is taken for a colon.
  return (← isSign ":") || (← isSign ",")

def indexSignature (g : Grammar) : Parser (List Param × Option TypeExpr) := do
  expect "["
  let name ← Parser.name
  if !(← eat ",") then expect ":"
  let type ← g.type
  expect "]"
  let result ← g.annotation
  memberEnd
  return ([.ident name false (some type)], result)

def getterMember (g : Grammar) : Parser Member := do
  expectWord "get"
  let key ← g.key
  expect "("
  expect ")"
  let type ← g.annotation
  memberEnd
  return .getter key type

def setterMember (g : Grammar) : Parser Member := do
  expectWord "set"
  let key ← g.key
  match ← g.signatureParams with
  | param :: _ =>
    memberEnd
    return .setter key param
  | [] => failure

def propertyOrMethod (g : Grammar) (isReadonly : Bool) : Parser Member := do
  let key ← g.key
  let isOptional ← eat "?"
  if !isReadonly && (← atSignature) then
    let signature ← g.signature
    memberEnd
    return .method key isOptional signature
  else
    let type ← g.annotation
    memberEnd
    return .property key isOptional isReadonly type

def member (g : Grammar) : Parser Member := do
  if ← atSignature then
    let signature ← g.signature
    memberEnd
    return .call signature
  else if (← isWord "new") && ((← peek).1 = .sign "(" || (← peek).1 = .sign "<") then
    advance
    let signature ← g.signature
    memberEnd
    return .construct signature
  else
    let isReadonly ← modifier "readonly"
    if ← startsIndex then
      let (params, type) ← g.indexSignature
      return .index isReadonly false params type
    else
      let accessor ← do
        if isReadonly then pure none
        else
          match ← attempt g.getterMember with
          | some getter => pure (some getter)
          | none => attempt g.setterMember
      match accessor with
      | some member => return member
      | none => g.propertyOrMethod isReadonly

def memberBlock (g : Grammar) : Parser (List Member) := do
  expect "\x7b"
  let members ← many do
    if ← isSign "\x7d" then return none else return some (← g.member)
  expect "\x7d"
  return members

def primaryType (g : Grammar) : Parser TypeExpr := do
  let c ← cursor
  match c.token with
  | .string | .number =>
    advance
    return .literal (← sourceSince c)
  | .sign "-" =>
    advance
    need (← eatToken .number)
    return .literal (← sourceSince c)
  | .sign "\x7b" =>
    if ← startsMapped then g.mappedType else return .literalType (← g.memberBlock)
  | .sign "[" =>
    advance
    return .tuple (← commaListTo "]" g.tupleElement)
  | .sign "(" =>
    advance
    let inner ← g.type
    expect ")"
    return .group inner
  | .sign _ =>
    let spans ← template g.type
    return .template (← sourceSince c) spans
  | .word "true" | .word "false" =>
    advance
    return .literal (← sourceSince c)
  | .word "this" => g.thisType
  | .word "typeof" => g.typeQuery
  | .word "import" => g.importType
  | .word word =>
    let next := (← peek).1
    if word = "asserts" && next = .word "this" then g.assertsThis
    else
      match keyword? word with
      | some keyword =>
        if next = .sign "." then g.typeReference
        else
          advance
          return .keyword keyword
      | none =>
        need (← atName)
        g.typeReference
  | _ => failure

def arrayType (g : Grammar) : Parser TypeExpr := do
  let first ← g.primaryType
  extend (fun inner => do
    if (← isSign "[") && !(← afterNewline) then
      advance
      if ← eat "]" then return some (.array inner)
      else
        let index ← g.type
        expect "]"
        return some (.indexed inner index)
    else return none) first

def inferBound (g : Grammar) (conditional : Bool) : Parser TypeExpr := do
  expectWord "extends"
  let bound ← g.typeIn false
  -- Before a question mark the bound belongs to a conditional type.
  need (!conditional || !(← isSign "?"))
  return bound

def operandType (g : Grammar) (conditional : Bool) : Parser TypeExpr := do
  if ← eatWord "keyof" then return .operator .keyof (← g.operand conditional)
  else if ← eatWord "unique" then return .operator .unique (← g.operand conditional)
  else if ← eatWord "readonly" then return .operator .readonly (← g.operand conditional)
  else if ← eatWord "infer" then
    let name ← Parser.name
    let bound ← attempt (g.inferBound conditional)
    return .infer (.mk name bound none)
  else g.arrayType

def joinedTypes (sign : String) (join : List TypeExpr → TypeExpr) (item : Parser TypeExpr) :
    Parser TypeExpr := do
  let _ ← eat sign
  match ← separated sign item with
  | [type] => return type
  | types => return join types

def unionType (g : Grammar) (conditional : Bool) : Parser TypeExpr :=
  joinedTypes "|" .union (joinedTypes "&" .intersection (g.operand conditional))

def paramStart (g : Grammar) : Parser Unit := do
  skipModifier
  let _ ← g.binding

def startsFunction (g : Grammar) : Parser Bool := do
  if ← isSign "<" then return true
  else ahead do
    expect "("
    if (← isSign ")") || (← isSign "...") then return true
    g.paramStart
    if (← isSign ":") || (← isSign ",") || (← isSign "?") || (← isSign "=") then return true
    expect ")"
    isSign "=>"

def arrowSignature (g : Grammar) (conditional : Bool) : Parser Signature := do
  let generics ← g.maybeTypeParams
  let params ← g.signatureParams
  expect "=>"
  return .mk generics params (some (← g.resultType conditional))

def plainType (g : Grammar) (conditional : Bool) : Parser TypeExpr := do
  if ← g.startsFunction then return .function (← g.arrowSignature conditional)
  else if ← eatWord "new" then return .constructor false (← g.arrowSignature conditional)
  else if (← isWord "abstract") && (← peek).1 = .word "new" then
    advance
    advance
    return .constructor true (← g.arrowSignature conditional)
  else g.unionType conditional

def fullType (g : Grammar) (conditional : Bool) : Parser TypeExpr := do
  let check ← g.plainType conditional
  if conditional && (← isWord "extends") && !(← afterNewline) then
    advance
    let bound ← g.typeIn false
    expect "?"
    let yes ← g.type
    expect ":"
    let no ← g.type
    return .conditional check bound yes no
  else return check

end Grammar

end AmbientCatalog.Syntax
