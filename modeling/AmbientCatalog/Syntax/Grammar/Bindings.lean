import AmbientCatalog.Syntax.Rule

/-!
# Keys, patterns and parameters

The parts that types, classes and functions share: member keys, binding patterns, annotations and
lists of parameters.
-/

set_option autoImplicit false

namespace AmbientCatalog.Syntax

open AmbientCatalog.Syntax.Parser

namespace Grammar

def computedKey (g : Grammar) : Parser Key := do
  expect "["
  let c ← cursor
  let _ ← g.assignment
  let text ← sourceSince c
  expect "]"
  return .computed text

def key (g : Grammar) : Parser Key := do
  let c ← cursor
  match c.token with
  | .word name =>
    advance
    return .ident name
  | .string =>
    advance
    return .string (← sourceSince c)
  | .number | .privateName =>
    advance
    return .verbatim (← sourceSince c)
  | _ => g.computedKey

def startsKey : Token → Bool
  | .word _ => true
  | .string => true
  | .number => true
  | .privateName => true
  | .sign text => text = "["
  | _ => false

def followsModifier (next : Token × Bool) : Bool :=
  !next.2 && (startsKey next.1 || next.1 = .sign "*" || next.1 = .sign "\x7b")

def modifier (word : String) : Parser Bool := do
  if (← isWord word) && followsModifier (← peek) then
    advance
    return true
  else return false

def isAccessWord (word : String) : Bool :=
  ["public", "private", "protected", "readonly"].contains word

def skipModifier : Parser Unit := do
  match ← token with
  | .word word =>
    if (← typed) && isAccessWord word && followsModifier (← peek) then advance
  | _ => pure ()

def annotation (g : Grammar) : Parser (Option TypeExpr) := do
  if (← typed) && (← isSign ":") then
    advance
    return some (← g.type)
  else return none

def patternElement (g : Grammar) : Parser Unit := do
  let _ ← g.binding
  if ← eat "=" then
    let _ ← g.assignment

def objectPatternField (g : Grammar) : Parser Unit := do
  if ← eat "..." then
    let _ ← g.binding
  else
    let named ← atName
    let _ ← g.key
    if ← eat ":" then g.patternElement
    else
      need named
      if ← eat "=" then
        let _ ← g.assignment

def arrayPatternField (g : Grammar) : Parser Unit := do
  if ← isSign "," then return ()
  let _ ← eat "..."
  g.patternElement

def bindingTarget (g : Grammar) : Parser Param := do
  if ← eat "\x7b" then
    let _ ← commaListTo "\x7d" g.objectPatternField
    return .pattern "" false none
  else if ← eat "[" then
    let _ ← commaListTo "]" g.arrayPatternField
    return .pattern "" false none
  else if ← (typed <&&> eatWord "this") then
    return .ident "this" false none
  else return .ident (← name) false none

def argument (g : Grammar) : Parser Unit := do
  let _ ← eat "..."
  let _ ← g.assignment

def arguments (g : Grammar) : Parser Unit := do
  expect "("
  let _ ← commaListTo ")" g.argument

def decoratorTarget (g : Grammar) : Parser Unit := do
  if ← eat "(" then
    let _ ← separated "," g.assignment
    expect ")"
  else
    let _ ← name
    let _ ← many do
      if ← eat "." then
        need ((← isAnyWord) || (← isToken .privateName))
        advance
        return some ()
      else return none

def decorator (g : Grammar) : Parser (Option Unit) := do
  if ← eat "@" then
    g.decoratorTarget
    if ← isSign "(" then g.arguments
    return some ()
  else return none

def decorators (g : Grammar) : Parser Unit := do
  let _ ← many g.decorator

def restParam (g : Grammar) : Parser Param := do
  let c ← cursor
  let target ← g.binding
  let hasDefault ← eat "="
  if hasDefault then
    let _ ← g.assignment
  let source ← sourceSince c
  let type ← g.annotation
  let _ ← if ← typed then eat "?" else pure false
  match target, hasDefault with
  | .ident name _ _, false => return .rest (.ident name none) type
  | _, _ => return .rest (.pattern source none) type

def plainParam (g : Grammar) : Parser Param := do
  skipModifier
  let c ← cursor
  let target ← g.binding
  let bare ← sourceSince c
  let isOptional ← if ← typed then eat "?" else pure false
  let marked ← sourceSince c
  let type ← g.annotation
  match target, type with
  | .ident name _ _, _ => return .ident name isOptional type
  | _, some _ => return .pattern (← sourceSince c) isOptional type
  -- Only the text of an array pattern takes in the mark of an optional parameter.
  | _, none => return .pattern (if c.token = .sign "[" then marked else bare) isOptional type

def defaultParam (g : Grammar) : Parser Param := do
  let param ← g.plainParam
  if ← eat "=" then
    let _ ← g.assignment
    return .withDefault param
  else return param

def param (g : Grammar) : Parser Param := do
  g.decorators
  if ← eat "..." then g.restParam else g.defaultParam

def signatureParam (g : Grammar) : Parser Param := do
  if ← eat "..." then g.restParam else g.plainParam

def params (g : Grammar) : Parser (List Param) := do
  expect "("
  commaListTo ")" g.param

def signatureParams (g : Grammar) : Parser (List Param) := do
  expect "("
  commaListTo ")" g.signatureParam

def templateFrom {α : Type} (span : Parser α) : Nat → Parser (List α)
  | 0 => failure
  | n + 1 => do
    let c ← cursor
    match templateRun (c.source.drop 1) with
    | none => failure
    | some (count, .closed) =>
      set (c.nextAfter (count + 1))
      return []
    | some (count, .substitution) =>
      set (c.nextAfter (count + 1))
      let first ← span
      need (← isSign "\x7d")
      return first :: (← templateFrom span n)

def templateSign : String := String.singleton backquote

def template {α : Type} (span : Parser α) : Parser (List α) := do
  need (← isSign templateSign)
  templateFrom span ((← cursor).size + 1)

end Grammar

end AmbientCatalog.Syntax
