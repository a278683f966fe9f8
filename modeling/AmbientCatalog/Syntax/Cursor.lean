import AmbientCatalog.Syntax.Token

/-!
# The grammar's cursor

A cursor stands at a token and knows the text from that token on. A parser is a function from a
cursor to a result and the cursor after it, or to nothing when the text does not fit. Trying a
parser and going back is keeping the older cursor. Repetition is bounded by the size of the text.
-/

set_option autoImplicit false

namespace AmbientCatalog.Syntax

structure Cursor where
  -- Whether type syntax is part of the language.
  typed : Bool
  -- The number of characters of the whole text.
  size : Nat
  token : Token
  start : Mark
  -- The text from the token on.
  source : List Char
  stop : Mark
  -- The text after the token.
  rest : List Char
  -- Whether a line ended between the previous token and this one.
  newline : Bool
  -- The offset at which the previous token ended.
  previousStop : Nat
  -- A word is an identifier.
  fits : ∀ name, token = .word name → Name.IsIdentifier name

namespace Cursor

def enter (typed : Bool) (size : Nat) (m : Mark) (cs : List Char) : Cursor :=
  let lead := skipGap .blank m false cs
  let read := if lead.closed then scan lead.text else (.invalid, 0)
  { typed := typed
    size := size
    token := read.1
    start := lead.mark
    source := lead.text
    stop := lead.mark.past (lead.text.take read.2)
    rest := lead.text.drop read.2
    newline := lead.newline
    previousStop := m.offset
    fits := by
      intro name h
      dsimp only [read] at h
      split at h
      · exact scan_isIdentifier h
      · exact absurd h (by simp) }

def next (c : Cursor) : Cursor := enter c.typed c.size c.stop c.rest

def nextAfter (c : Cursor) (count : Nat) : Cursor :=
  enter c.typed c.size (c.start.past (c.source.take count)) (c.source.drop count)

def skipInterpreter : List Char → List Char × Mark
  | '#' :: '!' :: cs =>
    let line := cs.takeWhile (fun c => !isLineEnd c)
    (cs.drop line.length, Mark.origin.past ('#' :: '!' :: line))
  | cs => (cs, Mark.origin)

def ofText (typed : Bool) (text : String) : Cursor :=
  let (cs, m) := skipInterpreter text.toList
  enter typed text.toList.length m cs

end Cursor

abbrev Parser := StateT Cursor Option

namespace Parser

def cursor : Parser Cursor := get

def token : Parser Token := do return (← get).token

def advance : Parser Unit := modify Cursor.next

def peek : Parser (Token × Bool) := do
  let c := (← get).next
  return (c.token, c.newline)

def typed : Parser Bool := do return (← get).typed

def afterNewline : Parser Bool := do return (← get).newline

def need (b : Bool) : Parser Unit := if b then pure () else failure

def attempt {α : Type} (p : Parser α) : Parser (Option α) := fun c =>
  match p c with
  | some (a, c') => some (some a, c')
  | none => some (none, c)

def ahead (p : Parser Bool) : Parser Bool := fun c =>
  match p c with
  | some (b, _) => some (b, c)
  | none => some (false, c)

def isToken (t : Token) : Parser Bool := do return (← token) = t

def isSign (text : String) : Parser Bool := isToken (.sign text)

def isWord (name : String) : Parser Bool := isToken (.word name)

def isAnyWord : Parser Bool := do
  match ← token with
  | .word _ => return true
  | _ => return false

def eatToken (t : Token) : Parser Bool := do
  if ← isToken t then
    advance
    return true
  else return false

def eat (text : String) : Parser Bool := eatToken (.sign text)

def eatWord (name : String) : Parser Bool := eatToken (.word name)

def expect (text : String) : Parser Unit := do need (← eat text)

def expectWord (name : String) : Parser Unit := do need (← eatWord name)

def anyWord : Parser String := do
  match ← token with
  | .word name =>
    advance
    return name
  | _ => failure

def reservedWords : List String :=
  ["break", "case", "catch", "class", "const", "continue", "debugger", "default", "delete", "do",
    "else", "enum", "export", "extends", "false", "finally", "for", "function", "if", "import",
    "in", "instanceof", "new", "null", "return", "super", "switch", "this", "throw", "true", "try",
    "typeof", "var", "void", "while", "with"]

def isName (t : Token) : Bool :=
  match t with
  | .word name => !reservedWords.contains name
  | _ => false

def atName : Parser Bool := do return isName (← token)

def name : Parser String := do
  need (← atName)
  anyWord

def atStatementEnd : Parser Bool := do
  let c ← get
  return c.newline || c.token = .stop || c.token = .sign ";" || c.token = .sign "\x7d"

def semicolon : Parser Unit := do
  need (← atStatementEnd)
  let _ ← eat ";"

def sourceSince (c : Cursor) : Parser String := do
  return String.ofList (c.source.take ((← get).previousStop - c.start.offset))

def loop {α : Type} (step : Parser (Option α)) : Nat → Parser (List α)
  | 0 => return []
  | n + 1 => do
    match ← step with
    | none => return []
    | some a => return a :: (← loop step n)

def many {α : Type} (step : Parser (Option α)) : Parser (List α) := do
  loop step ((← get).size + 1)

def iterate {α : Type} (step : α → Parser (Option α)) : Nat → α → Parser α
  | 0, a => return a
  | n + 1, a => do
    match ← step a with
    | none => return a
    | some a' => iterate step n a'

def extend {α : Type} (step : α → Parser (Option α)) (a : α) : Parser α := do
  iterate step ((← get).size + 1) a

def commaListTo {α : Type} (close : String) (item : Parser α) : Parser (List α) := do
  let items ← many do
    if ← isSign close then return none
    let a ← item
    if !(← eat ",") then need (← isSign close)
    return some a
  expect close
  return items

def separated {α : Type} (sign : String) (item : Parser α) : Parser (List α) := do
  let first ← item
  let others ← many do
    if ← eat sign then return some (← item) else return none
  return first :: others

end Parser

end AmbientCatalog.Syntax
