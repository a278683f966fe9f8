import AmbientCatalog.Json.Value

/-!
# Reading JSON text

The reader takes a list of characters and gives back a value together with the characters after
it. Nesting is bounded by a depth argument that the entry point takes from the length of the
text, so the bound is never met. Strings are checked for raw control characters and for unknown
escapes while they are read; unpaired surrogate escapes only take away the string's content.
-/

set_option autoImplicit false

namespace AmbientCatalog.Json

def isBlank (c : Char) : Bool := c = ' ' || c = '\n' || c = '\t' || c = '\r'

def skipBlanks (cs : List Char) : List Char := cs.dropWhile isBlank

def isLeading (unit : Nat) : Bool := 0xD800 ≤ unit && unit < 0xDC00

def isTrailing (unit : Nat) : Bool := 0xDC00 ≤ unit && unit < 0xE000

def joinPair (leading trailing : Nat) : Char :=
  Char.ofNat (0x10000 + (leading - 0xD800) * 0x400 + (trailing - 0xDC00))

def simpleEscape? (c : Char) : Option Char :=
  if c = '"' then some '"'
  else if c = '\\' then some '\\'
  else if c = '/' then some '/'
  else if c = 'b' then some (Char.ofNat 8)
  else if c = 'f' then some (Char.ofNat 12)
  else if c = 'n' then some '\n'
  else if c = 'r' then some '\r'
  else if c = 't' then some '\t'
  else none

inductive StringPart where
  | char (c : Char)
  | unit (value : Nat)
  deriving DecidableEq

def stringParts : List Char → Option (List StringPart × List Char)
  | [] => none
  | '"' :: rest => some ([], rest)
  | '\\' :: 'u' :: a :: b :: c :: d :: rest =>
    match Hex.ofDigits? [a, b, c, d] with
    | none => none
    | some unit => (stringParts rest).map (fun read => (.unit unit :: read.1, read.2))
  | '\\' :: c :: rest =>
    match simpleEscape? c with
    | none => none
    | some e => (stringParts rest).map (fun read => (.char e :: read.1, read.2))
  | c :: rest =>
    if c.toNat < 32 then none
    else (stringParts rest).map (fun read => (.char c :: read.1, read.2))

def joinParts : List StringPart → Option (List Char)
  | [] => some []
  | .char c :: rest => (joinParts rest).map (c :: ·)
  | .unit leading :: .unit trailing :: rest =>
    if isLeading leading then
      if isTrailing trailing then (joinParts rest).map (joinPair leading trailing :: ·) else none
    else if isTrailing leading then none
    else (joinParts (.unit trailing :: rest)).map (Char.ofNat leading :: ·)
  | .unit unit :: rest =>
    if isLeading unit || isTrailing unit then none
    else (joinParts rest).map (Char.ofNat unit :: ·)

def stringValue (cs : List Char) : Option (Option String × List Char) :=
  (stringParts cs).map (fun read => ((joinParts read.1).map String.ofList, read.2))

def isDigit (c : Char) : Bool := '0' ≤ c && c ≤ '9'

def digits (cs : List Char) : Option (List Char × List Char) :=
  match cs.takeWhile isDigit with
  | [] => none
  | run => some (run, cs.dropWhile isDigit)

def wholePart : List Char → Option (List Char × List Char)
  | '0' :: rest =>
    match rest with
    | c :: _ => if isDigit c then none else some (['0'], rest)
    | [] => some (['0'], [])
  | cs => digits cs

def fractionPart : List Char → Option (List Char × List Char)
  | '.' :: rest => (digits rest).map (fun read => ('.' :: read.1, read.2))
  | cs => some ([], cs)

def exponentPart : List Char → Option (List Char × List Char)
  | e :: rest =>
    if e = 'e' || e = 'E' then
      match rest with
      | s :: rest' =>
        if s = '+' || s = '-' then (digits rest').map (fun read => (e :: s :: read.1, read.2))
        else (digits rest).map (fun read => (e :: read.1, read.2))
      | [] => none
    else some ([], e :: rest)
  | [] => some ([], [])

def unsignedNumber (cs : List Char) : Option (List Char × List Char) := do
  let (whole, cs) ← wholePart cs
  let (fraction, cs) ← fractionPart cs
  let (exponent, cs) ← exponentPart cs
  return (whole ++ fraction ++ exponent, cs)

def numberValue (cs : List Char) : Option (Json × List Char) :=
  match cs with
  | '-' :: rest =>
    (unsignedNumber rest).map (fun read => (.number (String.ofList ('-' :: read.1)), read.2))
  | _ => (unsignedNumber cs).map (fun read => (.number (String.ofList read.1), read.2))

mutual
def value : Nat → List Char → Option (Json × List Char)
  | 0, _ => none
  | depth + 1, cs =>
    match skipBlanks cs with
    | 'n' :: 'u' :: 'l' :: 'l' :: rest => some (.null, rest)
    | 't' :: 'r' :: 'u' :: 'e' :: rest => some (.bool true, rest)
    | 'f' :: 'a' :: 'l' :: 's' :: 'e' :: rest => some (.bool false, rest)
    | '"' :: rest => (stringValue rest).map (fun read => (.string read.1, read.2))
    | '[' :: rest =>
      match skipBlanks rest with
      | ']' :: rest => some (.array [], rest)
      | rest => (items depth rest).map (fun read => (.array read.1, read.2))
    | '{' :: rest =>
      match skipBlanks rest with
      | '}' :: rest => some (.object [], rest)
      | rest => (fields depth rest).map (fun read => (.object read.1, read.2))
    | rest => numberValue rest

def items : Nat → List Char → Option (List Json × List Char)
  | 0, _ => none
  | depth + 1, cs =>
    match value depth cs with
    | none => none
    | some (item, rest) =>
      match skipBlanks rest with
      | ',' :: rest => (items depth rest).map (fun read => (item :: read.1, read.2))
      | ']' :: rest => some ([item], rest)
      | _ => none

def fields : Nat → List Char → Option (List (Option String × Json) × List Char)
  | 0, _ => none
  | depth + 1, cs =>
    match skipBlanks cs with
    | '"' :: rest =>
      match stringValue rest with
      | none => none
      | some (key, rest) =>
        match skipBlanks rest with
        | ':' :: rest =>
          match value depth rest with
          | none => none
          | some (item, rest) =>
            match skipBlanks rest with
            | ',' :: rest => (fields depth rest).map (fun read => ((key, item) :: read.1, read.2))
            | '}' :: rest => some ([(key, item)], rest)
            | _ => none
        | _ => none
    | _ => none
end

def parse? (s : String) : Option Json :=
  match value (s.toList.length + 1) s.toList with
  | some (j, rest) => if skipBlanks rest = [] then some j else none
  | none => none

end AmbientCatalog.Json
