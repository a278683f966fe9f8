/-!
# Paths

Slash separated paths as plain text. Joining keeps the text of both sides; only reading and
conversion to a URL resolve the segments `.` and `..`.
-/

set_option autoImplicit false

namespace AmbientCatalog.Path

def isAbsolute (path : String) : Bool := path.toList.head? = some '/'

def join (base path : String) : String :=
  if isAbsolute path then path
  else if base = "" || base.toList.getLast? = some '/' then base ++ path
  else base ++ "/" ++ path

def splitSlashes : List Char → List (List Char)
  | [] => [[]]
  | '/' :: cs => [] :: splitSlashes cs
  | c :: cs =>
    match splitSlashes cs with
    | [] => [[c]]
    | segment :: segments => (c :: segment) :: segments

def segments (path : String) : List String :=
  ((splitSlashes path.toList).map String.ofList).filter (fun s => s ≠ "" && s ≠ ".")

def resolve : List String → List String → List String
  | before, [] => before.reverse
  | before, ".." :: rest => resolve before.tail rest
  | before, segment :: rest => resolve (segment :: before) rest

def normalized (path : String) : List String := resolve [] (segments path)

def trimEnd : List Char → List Char
  | [] => []
  | '/' :: rest => if rest = [] then ['/'] else trimEnd rest
  | '.' :: '/' :: rest => if rest = [] then ['/'] else trimEnd rest
  | c :: rest => c :: rest

def parent? (path : String) : Option String :=
  match trimEnd path.toList.reverse with
  | [] => none
  | ['/'] => none
  | cs => some (String.ofList (trimEnd (cs.dropWhile (· ≠ '/'))).reverse)

def fileName (path : String) : String :=
  match (segments path).getLast? with
  | some ".." => ""
  | some name => name
  | none => ""

def splitExtension (name : String) : String × Option String :=
  let after := (name.toList.reverse.takeWhile (· ≠ '.')).reverse
  let stem := name.toList.take (name.toList.length - after.length - 1)
  -- A name that only starts with a dot has no extension.
  if stem = [] || after.length = name.toList.length then (name, none)
  else (String.ofList stem, some (String.ofList after))

end AmbientCatalog.Path
