import AmbientCatalog.Syntax.Grammar.Classes

/-!
# The grammar of expressions

Expressions matter by their extent, and by whether they are dotted names. Operators are therefore
read as one flat sequence, without precedence.
-/

set_option autoImplicit false

namespace AmbientCatalog.Syntax

open AmbientCatalog.Syntax.Parser

namespace Grammar

def expressionIn (g : Grammar) (allowIn : Bool) : Parser Expr := do
  match ← separated "," (g.assignmentIn allowIn) with
  | [e] => return e
  | _ => return .other

def expression (g : Grammar) : Parser Expr := g.expressionIn true

def arrayItem (g : Grammar) : Parser Unit := do
  if !(← isSign ",") then g.argument

def objectMethod (g : Grammar) : Parser Unit := do
  let _ ← g.functionHead
  let _ ← g.block false

def skipAccessorWord : Parser Unit := do
  if ((← isWord "get") || (← isWord "set")) && startsKey (← peek).1 then advance

def objectField (g : Grammar) : Parser Unit := do
  if ← eat "..." then
    let _ ← g.assignment
  else
    let _ ← modifier "async"
    let _ ← eat "*"
    skipAccessorWord
    let named ← atName
    let _ ← g.key
    if ← atSignature then g.objectMethod
    else if ← eat ":" then
      let _ ← g.assignment
    else
      need named
      g.initializer

def regex : Parser Unit := do
  let c ← cursor
  match scanRegex c.source with
  | some count => set (c.nextAfter count)
  | none => failure

def afterOther (p : Parser Unit) : Parser Expr := do
  p
  return .other

def plainWords : List String := ["null", "true", "false", "super", "this"]

def importExpression (g : Grammar) : Parser Unit := do
  expectWord "import"
  if ← eat "." then
    let _ ← anyWord
  else g.arguments

def primaryExpression (g : Grammar) : Parser Expr := do
  match ← token with
  | .string | .number | .privateName => afterOther advance
  | .sign "(" =>
    advance
    let inner ← g.expression
    expect ")"
    return .group inner
  | .sign "[" => afterOther do
    advance
    let _ ← commaListTo "]" g.arrayItem
  | .sign "\x7b" => afterOther do
    advance
    let _ ← commaListTo "\x7d" g.objectField
  | .sign "/" | .sign "/=" => afterOther regex
  | .sign "@" => afterOther do
    g.decorators
    g.classExpression
  | .sign _ => afterOther do
    let _ ← template g.expression
  | .word "function" => afterOther g.functionExpression
  | .word "class" => afterOther g.classExpression
  | .word "import" => afterOther g.importExpression
  | .word word =>
    if plainWords.contains word then afterOther advance
    else if word = "async" && (← peek) = (.word "function", false) then
      advance
      afterOther g.functionExpression
    else return .ident (← name)
  | _ => failure

def expressionTypeArgs (g : Grammar) : Parser Unit := do
  need (← typed)
  let _ ← g.typeArgs
  match ← token with
  | .sign "(" | .sign ")" | .sign "]" | .sign "," | .sign ";" | .sign ":" | .sign "." | .stop
  | .sign "\x7d" => pure ()
  | t => need (t = .sign templateSign)

def optionalAccess (g : Grammar) : Parser Unit := do
  if ← isSign "(" then g.arguments
  else if ← eat "[" then
    let _ ← g.expression
    expect "]"
  else if ← isSign "<" then
    g.expressionTypeArgs
    g.arguments
  else if !(← eatToken .privateName) then
    let _ ← anyWord

def access (g : Grammar) (calls : Bool) (target : Expr) : Parser (Option Expr) := do
  match ← token with
  | .sign "." =>
    advance
    if ← eatToken .privateName then return some .other
    else return some (.member target (← anyWord))
  | .sign "?." =>
    if calls then
      advance
      g.optionalAccess
      return some .other
    else return none
  | .sign "[" =>
    advance
    let _ ← g.expression
    expect "]"
    return some .other
  | .sign "(" =>
    if calls then
      g.arguments
      return some .other
    else return none
  | .sign "!" =>
    if (← typed) && !(← afterNewline) then
      advance
      return some .other
    else return none
  | .sign "<" =>
    match ← attempt g.expressionTypeArgs with
    | some _ => return some (.instantiated target)
    | none => return none
  | .sign text =>
    if text = templateSign then
      let _ ← template g.expression
      return some .other
    else return none
  | _ => return none

def newExpression (g : Grammar) : Parser Expr := do
  expectWord "new"
  if ← eat "." then
    let _ ← anyWord
  else
    let first ← if ← isWord "new" then g.leftHand else g.primaryExpression
    let _ ← extend (g.access false) first
    if ← isSign "(" then g.arguments
  return .other

def leftHandExpression (g : Grammar) : Parser Expr := do
  let first ← if ← isWord "new" then g.newExpression else g.primaryExpression
  extend (g.access true) first

def unarySigns : List String := ["!", "~", "+", "-", "++", "--"]

def unaryWords : List String := ["typeof", "void", "delete", "await"]

def isUnary : Token → Bool
  | .sign text => unarySigns.contains text
  | .word word => unaryWords.contains word
  | _ => false

def unaryExpression (g : Grammar) : Parser Expr := do
  if isUnary (← token) then
    advance
    let _ ← g.unary
    return .other
  else if ← (typed <&&> eat "<") then
    let _ ← g.type
    expect ">"
    let _ ← g.unary
    return .other
  else
    let e ← g.leftHand
    if ((← isSign "++") || (← isSign "--")) && !(← afterNewline) then
      advance
      return .other
    else return e

def binarySigns : List String :=
  ["+", "-", "*", "/", "%", "**", "&", "|", "^", "&&", "||", "??", "==", "!=", "===", "!==", "<=",
    "<", ">"]

def angleTail (sign : String) : Parser (Option Unit) := do
  let c ← cursor
  if c.token = .sign sign && c.start.offset = c.previousStop then
    advance
    return some ()
  else return none

def binaryOperator (allowIn : Bool) : Parser Bool := do
  match ← token with
  | .sign text =>
    if binarySigns.contains text then
      advance
      if text = "<" || text = ">" then
        let _ ← many (angleTail text)
        let _ ← angleTail "="
        let _ ← angleTail "<="
      return true
    else return false
  | .word "instanceof" =>
    advance
    return true
  | .word "in" =>
    if allowIn then
      advance
      return true
    else return false
  | _ => return false

def castTail (g : Grammar) : Parser Bool := do
  if (← typed) && !(← afterNewline) && ((← isWord "as") || (← isWord "satisfies")) then
    advance
    if !(← eatWord "const") then
      let _ ← g.type
    return true
  else return false

def binaryExpression (g : Grammar) (allowIn : Bool) : Parser Expr := do
  let first ← g.unary
  extend (fun _ => do
    if ← g.castTail then return some .other
    else if ← binaryOperator allowIn then
      let _ ← g.unary
      return some .other
    else return none) first

def arrowBody (g : Grammar) (allowIn : Bool) : Parser Unit := do
  need (!(← afterNewline))
  expect "=>"
  if ← isSign "\x7b" then
    let _ ← g.block false
  else
    let _ ← g.assignmentIn allowIn

def isOpening (t : Token) : Bool := t = .sign "(" || t = .sign "[" || t = .sign "\x7b"

def isClosing (t : Token) : Bool := t = .sign ")" || t = .sign "]" || t = .sign "\x7d"

def skipGroup (g : Grammar) : Nat → Nat → Parser Unit
  | 0, _ => failure
  | n + 1, depth => do
    let t ← token
    need (t ≠ .stop && t ≠ .invalid)
    if t = .sign templateSign then
      let _ ← template g.expression
      g.skipGroup n depth
    else
      advance
      if isOpening t then g.skipGroup n (depth + 1)
      else if isClosing t then
        if depth ≤ 1 then pure () else g.skipGroup n (depth - 1)
      else g.skipGroup n depth

def maybeArrow (g : Grammar) : Parser Bool := ahead do
  need (← isSign "(")
  g.skipGroup ((← cursor).size + 1) 0
  return (← isSign "=>") || ((← typed) && (← isSign ":"))

def arrowFunction (g : Grammar) (allowIn : Bool) : Parser Expr := do
  let _ ← g.functionHead
  g.arrowBody allowIn
  return .other

def bareArrow (g : Grammar) (allowIn : Bool) : Parser Expr := do
  let _ ← name
  g.arrowBody allowIn
  return .other

def asyncArrow (g : Grammar) (allowIn : Bool) : Parser Expr := do
  expectWord "async"
  need (!(← afterNewline))
  if (← atName) && (← peek).1 = .sign "=>" then g.bareArrow allowIn else g.arrowFunction allowIn

def maybeArrowFunction (g : Grammar) (allowIn : Bool) : Parser (Option Expr) := do
  if ← isWord "async" then
    match ← attempt (g.asyncArrow allowIn) with
    | some e => return some e
    | none => if (← peek).1 = .sign "=>" then some <$> g.bareArrow allowIn else return none
  else if (← atName) && (← peek).1 = .sign "=>" then some <$> g.bareArrow allowIn
  else if ← g.maybeArrow then attempt (g.arrowFunction allowIn)
  else if (← typed) && (← isSign "<") then attempt (g.arrowFunction allowIn)
  else return none

def yieldExpression (g : Grammar) (allowIn : Bool) : Parser Expr := do
  expectWord "yield"
  let starred ← eat "*"
  if starred then
    let _ ← g.assignmentIn allowIn
  else
    if !(← afterNewline) then
      let _ ← attempt (g.assignmentIn allowIn)
  return .other

def assignmentSigns : List String :=
  ["=", "+=", "-=", "*=", "/=", "%=", "**=", "&=", "|=", "^=", "&&=", "||=", "??="]

def assignmentExpression (g : Grammar) (allowIn : Bool) : Parser Expr := do
  match ← g.maybeArrowFunction allowIn with
  | some e => return e
  | none =>
    if ← isWord "yield" then g.yieldExpression allowIn
    else
      let e ← g.binaryExpression allowIn
      match ← token with
      | .sign "?" =>
        advance
        let _ ← g.assignment
        expect ":"
        let _ ← g.assignmentIn allowIn
        return .other
      | .sign text =>
        if assignmentSigns.contains text then
          advance
          let _ ← g.assignmentIn allowIn
          return .other
        else return e
      | _ => return e

end Grammar

end AmbientCatalog.Syntax
