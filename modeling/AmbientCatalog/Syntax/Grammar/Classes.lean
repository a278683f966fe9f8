import AmbientCatalog.Syntax.Grammar.Types

/-!
# The grammar of functions and classes

Bodies are read for their extent only. In a language without types every function has a body; with
types a body may be left out, as in overloads and ambient declarations.
-/

set_option autoImplicit false

namespace AmbientCatalog.Syntax

open AmbientCatalog.Syntax.Parser

namespace Grammar

def block (g : Grammar) (top : Bool) : Parser (List Item) := do
  expect "\x7b"
  let items ← many do
    if ← isSign "\x7d" then return none else return some (← g.item top)
  expect "\x7d"
  return items

def functionBody (g : Grammar) : Parser Unit := do
  if ← isSign "\x7b" then
    let _ ← g.block false
  else
    need (← typed)
    semicolon

def functionHead (g : Grammar) : Parser Signature := do
  let generics ← g.maybeTypeParams
  let params ← g.params
  return .mk generics params (← g.resultAnnotation)

structure MemberWords where
  flags : MemberFlags := {}
  isOverride : Bool := false
  isAccessor : Bool := false

def accessOf? : String → Option Access
  | "public" => some .isPublic
  | "private" => some .isPrivate
  | "protected" => some .isProtected
  | _ => none

def accessModifier : Parser (Option Access) := do
  match ← token with
  | .word word =>
    match accessOf? word with
    | none => return none
    | some access => if ← modifier word then return some access else return none
  | _ => return none

def endsKey (isTyped : Bool) : Token → Bool
  | .sign text =>
    ["(", "=", ";", "\x7d"].contains text || (isTyped && ["<", "!", ":", "?"].contains text)
  | _ => false

def looseModifier (word : String) : Parser Bool := do
  if (← isWord word) && !endsKey (← typed) (← peek).1 then
    advance
    return true
  else return false

def memberWord (words : MemberWords) : Parser (Option MemberWords) := do
  if ← modifier "abstract" then
    return some { words with flags := { words.flags with isAbstract := true } }
  else if ← modifier "readonly" then
    return some { words with flags := { words.flags with isReadonly := true } }
  else if ← modifier "override" then return some { words with isOverride := true }
  else if (← peek).1 ≠ .sign "\x7b" && (← modifier "static") then
    return some { words with flags := { words.flags with isStatic := true } }
  else return none

def memberWords : Parser MemberWords := do
  if ← typed then
    let before ← looseModifier "declare"
    let access ← accessModifier
    let after ← looseModifier "declare"
    let isStatic ← looseModifier "static"
    let words ← extend memberWord
      { flags := { isStatic := isStatic, isDeclared := before || after, access := access } }
    return { words with isAccessor := ← modifier "accessor" }
  else
    let isStatic ← looseModifier "static"
    return { flags := { isStatic := isStatic }, isAccessor := ← modifier "accessor" }

def constructorParam (g : Grammar) : Parser ConstructorParam := do
  g.decorators
  if ← typed then
    let access ← accessModifier
    let isOverride ← modifier "override"
    let isReadonly ← modifier "readonly"
    if access.isSome || isOverride || isReadonly then
      match ← g.defaultParam with
      | .pattern _ _ _ => failure
      | param => return .property param isReadonly access
  return .plain (← g.param)

def constructorTail (g : Grammar) (access : Option Access) : Parser ClassMember := do
  let _ ← g.maybeTypeParams
  expect "("
  let params ← commaListTo ")" g.constructorParam
  let _ ← g.annotation
  g.functionBody
  return .constructor access params

def initializer (g : Grammar) : Parser Unit := do
  if ← eat "=" then
    let _ ← g.assignment

def methodTail (g : Grammar) (form : MethodForm) (words : MemberWords) (isOptional : Bool)
    (key : Key) : Parser ClassMember := do
  let signature ← g.functionHead
  g.functionBody
  if key.isPrivate then return .silent
  else return .method form key { words.flags with isOptional := isOptional } signature

def propertyTail (g : Grammar) (words : MemberWords) (isOptional : Bool) (key : Key) :
    Parser ClassMember := do
  let _ ← if (← typed) && !isOptional then eat "!" else pure false
  let type ← g.annotation
  g.initializer
  semicolon
  if words.isAccessor || key.isPrivate then return .silent
  else return .property key { words.flags with isOptional := isOptional } type

def asyncMethod (g : Grammar) (words : MemberWords) (isOptional : Bool) : Parser ClassMember := do
  let _ ← eat "*"
  let key ← g.key
  need (words.flags.isStatic || !key.isConstructor)
  let isMarked ← if ← typed then eat "?" else pure false
  g.methodTail .method words (isOptional || isMarked) key

def accessorForm? (key : Key) : Parser (Option MethodForm) := do
  let c ← cursor
  if endsKey c.typed c.token || (c.newline && c.token = .sign "*") then return none
  else
    match key with
    | .ident "get" => return some .getter
    | .ident "set" => return some .setter
    | _ => return none

def keyedMember (g : Grammar) (words : MemberWords) : Parser ClassMember := do
  if ← eat "*" then g.methodTail .method words false (← g.key)
  else
    let key ← g.key
    let isOptional ← if ← typed then eat "?" else pure false
    if ← atSignature then
      need (!words.flags.isReadonly)
      if key.isConstructor && !words.flags.isStatic then g.constructorTail words.flags.access
      else g.methodTail .method words isOptional key
    else
      match ← accessorForm? key with
      | some form => g.methodTail form words isOptional (← g.key)
      | none =>
        if (← afterNewline) || endsKey (← typed) (← token) then
          g.propertyTail words isOptional key
        else
          need (key = .ident "async" && !words.flags.isReadonly)
          g.asyncMethod words isOptional

def MemberWords.allowIndex (words : MemberWords) : Bool :=
  words.flags.access.isNone && !words.flags.isAbstract && !words.isOverride

def classMember (g : Grammar) : Parser ClassMember := do
  if ← eat ";" then return .silent
  g.decorators
  let words ← memberWords
  if words.flags.isStatic && (← isSign "\x7b") then
    let _ ← g.block false
    return .silent
  else if (← typed) && words.allowIndex && (← startsIndex) then
    let (params, type) ← g.indexSignature
    return .index words.flags.isReadonly words.flags.isStatic params type
  else g.keyedMember words

def heritage (g : Grammar) : Parser (Expr × List TypeExpr) := do
  let base := (← g.leftHand).withoutArgs
  let args ← if (← typed) && (← isSign "<") then g.typeArgs else pure []
  return (base, args)

def endsHeritage : Token → Bool
  | .sign text => text = "\x7b"
  | .word word => word = "extends" || word = "implements"
  | _ => false

def heritageList (g : Grammar) : Parser (List (Expr × List TypeExpr)) := many do
  if endsHeritage (← token) then return none
  let base ← g.heritage
  if !(← eat ",") then need (endsHeritage (← token))
  return some base

def classClause (g : Grammar) (base : Option (Expr × List TypeExpr)) :
    Parser (Option (Option (Expr × List TypeExpr))) := do
  if ← eatWord "extends" then
    let first ← g.heritage
    if ← (typed <&&> eat ",") then
      let _ ← g.heritageList
    -- Only the first base that is extended counts.
    return some (base.or (some first))
  else if ← (typed <&&> eatWord "implements") then
    let _ ← g.heritageList
    return some base
  else return none

def classTail (g : Grammar) (name : String) (isAbstract isDeclared : Bool) : Parser ClassDecl := do
  let generics ← g.maybeTypeParams
  let base ← extend g.classClause none
  expect "\x7b"
  let members ← many do
    if ← isSign "\x7d" then return none else return some (← g.classMember)
  expect "\x7d"
  return {
    name := name
    isAbstract := isAbstract
    isDeclared := isDeclared
    generics := generics
    superclass := base.map Prod.fst
    superArgs := (base.map Prod.snd).getD []
    members := members }

def classExpression (g : Grammar) : Parser Unit := do
  expectWord "class"
  let named := (← atName) && !(← isWord "implements")
  let name ← if named then Parser.name else pure ""
  let _ ← g.classTail name false false

def functionExpression (g : Grammar) : Parser Unit := do
  expectWord "function"
  let _ ← eat "*"
  if ← atName then
    let _ ← Parser.name
  let _ ← g.functionHead
  g.functionBody

end Grammar

end AmbientCatalog.Syntax
