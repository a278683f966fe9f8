import AmbientCatalog.Hex

/-!
# JSON values and their text

A JSON value keeps its object fields in order and its numbers as written. A string whose escapes
name half of a surrogate pair has no text; it can be read, skipped, and never written.

Values are written in two forms: compact, and indented by two spaces a level. Inside strings only
the quote, the backslash and the control characters are escaped.
-/

set_option autoImplicit false

namespace AmbientCatalog

/-- A JSON value. The content of a string is absent when its escapes do not form a text. -/
inductive Json where
  | null
  | bool (value : Bool)
  | number (source : String)
  | string (content : Option String)
  | array (items : List Json)
  | object (fields : List (Option String × Json))

namespace Json

def text (s : String) : Json := .string (some s)

def escape (c : Char) : List Char :=
  if c = '"' then ['\\', '"']
  else if c = '\\' then ['\\', '\\']
  else if c = '\n' then ['\\', 'n']
  else if c = '\r' then ['\\', 'r']
  else if c = '\t' then ['\\', 't']
  else if c = Char.ofNat 8 then ['\\', 'b']
  else if c = Char.ofNat 12 then ['\\', 'f']
  else if c.toNat < 32 then ['\\', 'u', '0', '0', Hex.lowerDigit (c.toNat / 16),
      Hex.lowerDigit (c.toNat % 16)]
  else [c]

def quote (s : String) : List Char := '"' :: (s.toList.flatMap escape ++ ['"'])

def quoteContent (content : Option String) : List Char := quote (content.getD "")

mutual
def compact : Json → List Char
  | .null => "null".toList
  | .bool true => "true".toList
  | .bool false => "false".toList
  | .number source => source.toList
  | .string content => quoteContent content
  | .array items => '[' :: (compactItems items ++ [']'])
  | .object fields => '{' :: (compactFields fields ++ ['}'])

def compactItems : List Json → List Char
  | [] => []
  | [item] => compact item
  | item :: rest => compact item ++ ',' :: compactItems rest

def compactFields : List (Option String × Json) → List Char
  | [] => []
  | [(key, value)] => quoteContent key ++ ':' :: compact value
  | (key, value) :: rest =>
    quoteContent key ++ ':' :: (compact value ++ ',' :: compactFields rest)
end

def newline (level : Nat) : List Char := '\n' :: List.replicate (2 * level) ' '

mutual
def indented (level : Nat) : Json → List Char
  | .null => "null".toList
  | .bool true => "true".toList
  | .bool false => "false".toList
  | .number source => source.toList
  | .string content => quoteContent content
  | .array [] => ['[', ']']
  | .array (item :: rest) =>
    '[' :: (indentedItems (level + 1) (item :: rest) ++ (newline level ++ [']']))
  | .object [] => ['{', '}']
  | .object (field :: rest) =>
    '{' :: (indentedFields (level + 1) (field :: rest) ++ (newline level ++ ['}']))

def indentedItems (level : Nat) : List Json → List Char
  | [] => []
  | [item] => newline level ++ indented level item
  | item :: rest => newline level ++ (indented level item ++ ',' :: indentedItems level rest)

def indentedFields (level : Nat) : List (Option String × Json) → List Char
  | [] => []
  | [(key, value)] =>
    newline level ++ (quoteContent key ++ ':' :: ' ' :: indented level value)
  | (key, value) :: rest =>
    newline level ++ (quoteContent key ++ ':' :: ' ' ::
      (indented level value ++ ',' :: indentedFields level rest))
end

def toCompact (j : Json) : String := String.ofList (compact j)

def toPretty (j : Json) : String := String.ofList (indented 0 j)

end Json

end AmbientCatalog
