import AmbientCatalog.Syntax.Grammar.Expressions

/-!
# The grammar of statements

Declarations are read into trees; every other statement is read for its extent. The words that
start a declaration of types are names everywhere else, so each is tested against what follows it.
-/

set_option autoImplicit false

namespace AmbientCatalog.Syntax

open AmbientCatalog.Syntax.Parser

namespace Grammar

def declarator (g : Grammar) (allowIn : Bool) : Parser Declarator := do
  let target ← g.binding
  let _ ← if ← typed then eat "!" else pure false
  let type ← g.annotation
  if ← eat "=" then
    let _ ← g.assignmentIn allowIn
  match target with
  | .ident name _ _ => return .ident name type
  | _ => return .destructured

def declarators (g : Grammar) (allowIn : Bool) : Parser (List Declarator) :=
  separated "," (g.declarator allowIn)

def variableDecl (g : Grammar) (isDeclared : Bool) : Parser VariableDecl := do
  let word ← anyWord
  let declarators ← g.declarators true
  semicolon
  return { isConst := word = "const", isDeclared := isDeclared, declarators := declarators }

def functionDecl (g : Grammar) (isDeclared : Bool) : Parser FunctionDecl := do
  expectWord "function"
  let _ ← eat "*"
  let name ← Parser.name
  let signature ← g.functionHead
  g.functionBody
  return { name := name, isDeclared := isDeclared, signature := signature }

def classDecl (g : Grammar) (isAbstract isDeclared : Bool) : Parser ClassDecl := do
  expectWord "class"
  let name ← Parser.name
  g.classTail name isAbstract isDeclared

def interfaceTail (g : Grammar) : Parser InterfaceDecl := do
  let name ← Parser.name
  let _ ← g.maybeTypeParams
  let bases ← if ← eatWord "extends" then g.heritageList else pure []
  let members ← g.memberBlock
  return { name := name, bases := bases.map Prod.fst, members := members }

def aliasTail (g : Grammar) : Parser Decl := do
  let name ← Parser.name
  let _ ← g.maybeTypeParams
  expect "="
  let next ← peek
  let whole := next.2 || next.1 = .sign ";" || next.1 = .stop || next.1 = .sign "\x7d"
  let type ← do
    if (← isWord "intrinsic") && whole then
      advance
      pure (TypeExpr.keyword .intrinsic)
    else g.type
  semicolon
  return .aliasDecl name type

def enumMember (g : Grammar) : Parser Unit := do
  let _ ← g.key
  if ← eat "=" then
    let _ ← g.assignment
    let _ ← eat ","
  -- Without a value, any one token is taken for the comma.
  else if !(← isSign "\x7d") then advance

def enumTail (g : Grammar) : Parser Unit := do
  let _ ← Parser.name
  expect "\x7b"
  let _ ← many do
    if ← isSign "\x7d" then return none else return some (← g.enumMember)
  expect "\x7d"

def namespaceBody (g : Grammar) : Nat → Parser NamespaceBody
  | 0 => return .block (← g.block true)
  | n + 1 => do
    if ← eat "." then
      let part ← Parser.name
      return .nested part (← g.namespaceBody n)
    else return .block (← g.block true)

def namespaceTail (g : Grammar) (isDeclared : Bool) : Parser Decl := do
  let part ← Parser.name
  let size := (← get).size
  return .ofNamespace isDeclared part (← g.namespaceBody (size + 1))

def outsideModule (g : Grammar) : Parser Decl := do
  need (← eatToken .string)
  if ← isSign "\x7b" then
    let _ ← g.block true
  else semicolon
  return .outsideModule

def globalTail (g : Grammar) : Parser Decl := do
  if ← isSign "\x7b" then return .globalBlock (← g.block true)
  else
    semicolon
    return .outsideModule

def typedDecl (g : Grammar) (isDeclared : Bool) : Parser Decl := do
  match ← anyWord with
  | "abstract" => return .classDecl (← g.classDecl true isDeclared)
  | "interface" => return .interfaceDecl (← g.interfaceTail)
  | "type" => g.aliasTail
  | "enum" =>
    g.enumTail
    return .enumDecl
  | "namespace" => g.namespaceTail isDeclared
  | "module" =>
    if ← isToken .string then g.outsideModule else g.namespaceTail isDeclared
  | _ => failure

def typedWords : List String := ["abstract", "interface", "type", "enum", "namespace", "module"]

def variableWords : List String := ["var", "let", "const"]

def declarationAfter (g : Grammar) (isDeclared : Bool) : Parser Decl := do
  match ← token with
  | .word "function" => return .functionDecl (← g.functionDecl isDeclared)
  | .word "class" => return .classDecl (← g.classDecl false isDeclared)
  | .word "const" =>
    if (← typed) && (← peek).1 = .word "enum" then
      advance
      g.typedDecl isDeclared
    else return .variableDecl (← g.variableDecl isDeclared)
  | .word word =>
    if variableWords.contains word then return .variableDecl (← g.variableDecl isDeclared)
    else if word = "async" && (← peek).1 = .word "function" && !isDeclared then
      advance
      return .functionDecl (← g.functionDecl isDeclared)
    else if (← typed) && word = "global" && isDeclared then
      advance
      g.globalTail
    else if (← typed) && typedWords.contains word then g.typedDecl isDeclared
    else failure
  | _ => failure

def startsAmbient : Parser Bool := do
  let (next, newline) ← peek
  match next with
  | .word word =>
    return ["function", "class", "global"].contains word || variableWords.contains word
      || (typedWords.contains word && !(word = "module" && newline))
  | _ => return false

def startsTyped (word : String) : Parser Bool := do
  let (next, newline) ← peek
  match word with
  | "declare" => startsAmbient
  | "abstract" => return next = .word "class" && !newline
  | "enum" => return isName next
  | "interface" => return isName next && !newline
  | "namespace" => return isName next
  | "type" => return isName next && !newline
  | "module" => return (isName next || next = .string) && !newline
  | "global" => return next = .sign "\x7b"
  | _ => return false

def typedStatement (g : Grammar) (word : String) : Parser Decl := do
  match word with
  | "declare" =>
    advance
    g.declarationAfter true
  | "global" =>
    advance
    g.globalTail
  | _ => g.typedDecl false

def importAttributes (g : Grammar) : Parser Unit := do
  if (← isWord "with") || ((← isWord "assert") && !(← afterNewline)) then
    advance
    expect "\x7b"
    let _ ← commaListTo "\x7d" g.objectField

def moduleSource (g : Grammar) : Parser Unit := do
  need (← eatToken .string)
  g.importAttributes
  semicolon

def specifierWord : Parser (Option Unit) := do
  if (← isAnyWord) || (← isToken .string) then
    advance
    return some ()
  else return none

def specifier : Parser Unit := do
  need ((← isAnyWord) || (← isToken .string))
  let _ ← many specifierWord

def specifiers : Parser Unit := do
  expect "\x7b"
  let _ ← commaListTo "\x7d" specifier

def importNames : Parser Unit := do
  if ← eat "*" then
    expectWord "as"
    let _ ← name
  else if ← isSign "\x7b" then specifiers
  else
    let _ ← name
    if ← eat "," then
      if ← eat "*" then
        expectWord "as"
        let _ ← name
      else specifiers

def importEquals (g : Grammar) : Parser Unit := do
  need (← typed)
  if ← isWord "type" then
    if isName (← peek).1 then advance
  let _ ← name
  expect "="
  if (← isWord "require") && (← peek).1 = .sign "(" then
    advance
    g.arguments
  else
    let _ ← entityName
  semicolon

def importFrom (g : Grammar) : Parser Unit := do
  importNames
  expectWord "from"
  g.moduleSource

def markedImport (g : Grammar) : Parser Unit := do
  match ← token with
  | .word "type" => need (← typed)
  | .word "defer" | .word "source" => pure ()
  | _ => failure
  advance
  g.importFrom

def importDecl (g : Grammar) : Parser Unit := do
  expectWord "import"
  if ← isToken .string then g.moduleSource
  else
    match ← attempt g.importEquals with
    | some _ => pure ()
    | none =>
      match ← attempt g.markedImport with
      | some _ => pure ()
      | none => g.importFrom

def defaultExport (g : Grammar) : Parser Unit := do
  g.decorators
  match ← token with
  | .word "function" => g.functionExpression
  | .word "class" => g.classExpression
  | .word word =>
    let next ← peek
    if word = "async" && next = (.word "function", false) then
      advance
      g.functionExpression
    else if (← typed) && word = "abstract" && next = (.word "class", false) then
      advance
      g.classExpression
    else if (← typed) && word = "interface" then
      let _ ← g.typedDecl false
    else
      let _ ← g.assignment
      semicolon
  | _ =>
    let _ ← g.assignment
    semicolon

def exportNames (g : Grammar) : Parser Unit := do
  if ← eat "*" then
    if ← eatWord "as" then
      need ((← isAnyWord) || (← isToken .string))
      advance
    expectWord "from"
    g.moduleSource
  else
    specifiers
    if ← eatWord "from" then g.moduleSource else semicolon

def exportContent (g : Grammar) : Parser Content := do
  let isTyped ← typed
  let next ← peek
  match ← token with
  | .sign "*" | .sign "\x7b" =>
    g.exportNames
    return .other
  | .sign "=" =>
    need isTyped
    advance
    let _ ← g.expression
    semicolon
    return .other
  | .sign "@" =>
    g.decorators
    return .exported (← g.declarationAfter false)
  | .word "default" =>
    advance
    g.defaultExport
    return .other
  | .word word =>
    if isTyped && word = "as" && next.1 = .word "namespace" then
      advance
      advance
      let _ ← name
      semicolon
      return .other
    else if isTyped && word = "import" then
      advance
      g.importEquals
      return .other
    else if isTyped && word = "type" && (next.1 = .sign "\x7b" || next.1 = .sign "*") then
      advance
      g.exportNames
      return .other
    else if isTyped && word = "declare" then
      advance
      return .exported (← g.declarationAfter true)
    else return .exported (← g.declarationAfter false)
  | _ => failure

def group (g : Grammar) : Parser Unit := do
  expect "("
  let _ ← g.expression
  expect ")"

def statement (g : Grammar) : Parser Unit := do
  let _ ← g.item false

def ifStatement (g : Grammar) : Parser Unit := do
  expectWord "if"
  g.group
  g.statement
  if ← eatWord "else" then g.statement

def guardedStatement (g : Grammar) : Parser Unit := do
  advance
  g.group
  g.statement

def doStatement (g : Grammar) : Parser Unit := do
  expectWord "do"
  g.statement
  expectWord "while"
  g.group
  let _ ← eat ";"

def loopStart (g : Grammar) : Parser Unit := do
  match ← token with
  | .sign ";" => pure ()
  | .word word =>
    let next := (← peek).1
    if variableWords.contains word
        || (word = "using" && isName next && next ≠ .word "of") then
      advance
      let _ ← g.declarators false
    else if word = "await" && next = .word "using" then
      advance
      advance
      let _ ← g.declarators false
    else
      let _ ← g.expressionIn false
  | _ =>
    let _ ← g.expressionIn false

def maybeExpression (g : Grammar) (close : String) : Parser Unit := do
  if !(← isSign close) then
    let _ ← g.expression
  expect close

def forStatement (g : Grammar) : Parser Unit := do
  expectWord "for"
  let _ ← eatWord "await"
  expect "("
  g.loopStart
  if ← (eatWord "of" <||> eatWord "in") then
    let _ ← g.expression
    expect ")"
  else
    expect ";"
    g.maybeExpression ";"
    g.maybeExpression ")"
  g.statement

def tryStatement (g : Grammar) : Parser Unit := do
  expectWord "try"
  let _ ← g.block false
  if ← eatWord "catch" then
    if ← eat "(" then
      let _ ← g.binding
      let _ ← g.annotation
      expect ")"
    let _ ← g.block false
  if ← eatWord "finally" then
    let _ ← g.block false

def switchEntry (g : Grammar) : Parser (Option Unit) := do
  if ← isSign "\x7d" then return none
  else if ← eatWord "case" then
    let _ ← g.expression
    expect ":"
    return some ()
  else if ← eatWord "default" then
    expect ":"
    return some ()
  else
    g.statement
    return some ()

def switchStatement (g : Grammar) : Parser Unit := do
  expectWord "switch"
  g.group
  expect "\x7b"
  let _ ← many g.switchEntry
  expect "\x7d"

def throwStatement (g : Grammar) : Parser Unit := do
  expectWord "throw"
  need (!(← afterNewline))
  let _ ← g.expression
  semicolon

def returnStatement (g : Grammar) : Parser Unit := do
  expectWord "return"
  if !(← atStatementEnd) then
    let _ ← g.expression
  semicolon

def jumpStatement : Parser Unit := do
  advance
  if (← atName) && !(← afterNewline) then advance
  semicolon

def usingDecl (g : Grammar) : Parser Unit := do
  let _ ← eatWord "await"
  expectWord "using"
  let _ ← g.declarators true
  semicolon

def startsUsing : Parser Bool := ahead do
  if ← eatWord "await" then need (!(← afterNewline))
  expectWord "using"
  return (← atName) && !(← afterNewline)

def expressionStatement (g : Grammar) : Parser Unit := do
  if (← atName) && (← peek).1 = .sign ":" then
    advance
    advance
    g.statement
  else
    let _ ← g.expression
    semicolon

def afterOtherContent (p : Parser Unit) : Parser Content := do
  p
  return .other

def wordStatement (g : Grammar) (top : Bool) (word : String) : Parser Content := do
  let next ← peek
  match word with
  | "var" => return .plain (← g.declarationAfter false)
  | "const" => return .plain (← g.declarationAfter false)
  | "function" => return .plain (← g.declarationAfter false)
  | "class" => return .plain (← g.declarationAfter false)
  | "if" => afterOtherContent g.ifStatement
  | "while" => afterOtherContent g.guardedStatement
  | "with" => afterOtherContent g.guardedStatement
  | "do" => afterOtherContent g.doStatement
  | "for" => afterOtherContent g.forStatement
  | "try" => afterOtherContent g.tryStatement
  | "switch" => afterOtherContent g.switchStatement
  | "throw" => afterOtherContent g.throwStatement
  | "return" => afterOtherContent g.returnStatement
  | "break" => afterOtherContent jumpStatement
  | "continue" => afterOtherContent jumpStatement
  | "debugger" => afterOtherContent jumpStatement
  | "export" =>
    need top
    advance
    g.exportContent
  | "import" =>
    if next.1 = .sign "(" || next.1 = .sign "." then afterOtherContent g.expressionStatement
    else
      need top
      afterOtherContent g.importDecl
  | _ =>
    if word = "let" && (isName next.1 || next.1 = .sign "[" || next.1 = .sign "\x7b") then
      return .plain (← g.declarationAfter false)
    else if word = "async" && next = (.word "function", false) then
      return .plain (← g.declarationAfter false)
    else if ← startsUsing then
      g.usingDecl
      return .plain .usingDecl
    else if (← typed) && (← startsTyped word) then return .plain (← g.typedStatement word)
    else afterOtherContent g.expressionStatement

def content (g : Grammar) (top : Bool) : Parser Content := do
  match ← token with
  | .sign ";" =>
    advance
    return .empty
  | .sign "\x7b" => afterOtherContent do
    let _ ← g.block false
  | .sign "@" =>
    g.decorators
    if ← eatWord "export" then
      if ← isWord "default" then g.exportContent
      else return .exported (← g.declarationAfter false)
    else return .plain (← g.declarationAfter false)
  | .word word => g.wordStatement top word
  | _ => afterOtherContent g.expressionStatement

def statementItem (g : Grammar) (top : Bool) : Parser Item := do
  let c ← cursor
  return .mk c.start.position (← g.content top)

end Grammar

def rules (g : Grammar) : Grammar
  | .type conditional => g.fullType conditional
  | .operand conditional => g.operandType conditional
  | .assignment allowIn => g.assignmentExpression allowIn
  | .unary => g.unaryExpression
  | .leftHand => g.leftHandExpression
  | .binding => g.bindingTarget
  | .item top => g.statementItem top

def grammar : Nat → Grammar
  | 0 => fun _ => failure
  | depth + 1 => rules (grammar depth)

/-- Every rule is reached from another one through at most a few others that take no token, so
this depth is enough for a text of the given size. -/
def depthFor (size : Nat) : Nat := 8 * size + 64

def program (g : Grammar) : Parser (List Item) := do
  let items ← many do
    if ← isToken .stop then return none else return some (← g.item true)
  need (← isToken .stop)
  return items

def parse? (typed : Bool) (text : String) : Option (List Item) :=
  let c := Cursor.ofText typed text
  (program (grammar (depthFor c.size)) c).map Prod.fst

end AmbientCatalog.Syntax
