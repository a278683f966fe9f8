import AmbientCatalog.Hex
import AmbientCatalog.Path

/-!
# URLs

Files are known by absolute URLs, which are brought to a normal form: the scheme and the host in
lower case, default ports left out, dot segments resolved, and characters that may not stand in a
part of a URL written by their UTF-8 bytes. An absolute path has a `file` URL.
-/

set_option autoImplicit false

namespace AmbientCatalog

structure Url where
  scheme : String
  authority : Option String
  path : String
  query : Option String
  fragment : Option String
  deriving DecidableEq, Repr

namespace Url

def text (url : Url) : String :=
  let authority :=
    match url.authority with
    | some authority => "//" ++ authority
    | none => if "//".toList.isPrefixOf url.path.toList then "/." else ""
  url.scheme ++ ":" ++ authority ++ url.path
    ++ ((url.query.map ("?" ++ ·)).getD "") ++ ((url.fragment.map ("#" ++ ·)).getD "")

def percentByte (b : UInt8) : List Char :=
  ['%', Hex.upperDigit (b.toNat / 16), Hex.upperDigit (b.toNat % 16)]

def encode (special : List Char) (cs : List Char) : List Char :=
  cs.flatMap (fun c =>
    if c.toNat < 32 || c.toNat > 126 || special.contains c then
      (String.utf8EncodeChar c).flatMap percentByte
    else [c])

def fragmentSet : List Char := [' ', '"', '<', '>', Char.ofNat 96]

def pathSet : List Char := fragmentSet ++ ['#', '?', '{', '}']

def segmentSet : List Char := pathSet ++ ['/', '%', '\\']

def querySet : List Char := [' ', '"', '#', '<', '>']

def userSet : List Char := pathSet ++ ['/', ':', ';', '=', '@', '[', '\\', ']', '^', '|']

def specialPort? : String → Option String
  | "http" => some "80"
  | "https" => some "443"
  | "ws" => some "80"
  | "wss" => some "443"
  | "ftp" => some "21"
  | "file" => some ""
  | _ => none

def isSpecial (scheme : String) : Bool := (specialPort? scheme).isSome

def isSchemeChar (c : Char) : Bool := c.isAlphanum || c = '+' || c = '-' || c = '.'

def splitScheme? (cs : List Char) : Option (String × List Char) :=
  let scheme := cs.takeWhile isSchemeChar
  match scheme, cs.drop scheme.length with
  | c :: _, ':' :: rest =>
    if c.isAlpha then some (String.ofList (scheme.map Char.toLower), rest) else none
  | _, _ => none

def cutAt (c : Char) (cs : List Char) : List Char × Option (List Char) :=
  match cs.dropWhile (· ≠ c) with
  | _ :: rest => (cs.takeWhile (· ≠ c), some rest)
  | [] => (cs, none)

def cutAtLast (c : Char) (cs : List Char) : Option (List Char × List Char) :=
  match cutAt c cs.reverse with
  | (after, some before) => some (before.reverse, after.reverse)
  | (_, none) => none

def isDrive : List Char → Bool
  | [letter, mark] => letter.isAlpha && (mark = ':' || mark = '|')
  | _ => false

def isSingleDot (segment : List Char) : Bool :=
  segment = ['.'] || segment.map Char.toLower = ['%', '2', 'e']

def isDoubleDot (segment : List Char) : Bool :=
  ["..", ".%2e", "%2e.", "%2e%2e"].contains (String.ofList (segment.map Char.toLower))

def driveSegment (isFile : Bool) (before : List (List Char)) (segment : List Char) : List Char :=
  if isFile && before = [] && isDrive segment then
    match segment with
    | letter :: _ => [letter, ':']
    | [] => []
  else segment

def stepUp (isFile : Bool) (before : List (List Char)) : List (List Char) :=
  match before with
  -- A drive letter at the root stays.
  | [drive] => if isFile && isDrive drive then before else []
  | _ => before.tail

def resolveDots (isFile : Bool) : List (List Char) → List (List Char) → List (List Char)
  | before, [] => before.reverse
  | before, [segment] =>
    if isDoubleDot segment then ([] :: stepUp isFile before).reverse
    else if isSingleDot segment then ([] :: before).reverse
    else (encode pathSet (driveSegment isFile before segment) :: before).reverse
  | before, segment :: rest =>
    if isDoubleDot segment then resolveDots isFile (stepUp isFile before) rest
    else if isSingleDot segment then resolveDots isFile before rest
    else
      resolveDots isFile (encode pathSet (driveSegment isFile before segment) :: before) rest

def normalPath (isFile : Bool) (cs : List Char) : String :=
  let body := if cs.head? = some '/' then cs.tail else cs
  String.ofList
    ((resolveDots isFile [] (Path.splitSlashes body)).flatMap (fun segment => '/' :: segment))

def forbiddenHost : List Char :=
  [' ', '#', '/', '<', '>', '?', '@', '[', '\\', ']', '^', '|', '%', ':', '"', Char.ofNat 96, '{',
    '}']

def host? (cs : List Char) : Option String :=
  if cs.head? = some '[' && cs.getLast? = some ']' then
    some (String.ofList (cs.map Char.toLower))
  else if cs.any (fun c => c.toNat < 33 || forbiddenHost.contains c) then none
  else some (String.ofList (cs.map Char.toLower))

def port? (cs : List Char) : Option String :=
  if cs.all Char.isDigit then
    match cs with
    | [] => some ""
    | _ =>
      let n := cs.foldl (fun n c => n * 10 + (c.toNat - 48)) 0
      if n < 65536 then some n.repr else none
  else none

def hostPort? (scheme : String) (cs : List Char) : Option String := do
  let (hostPart, portPart) :=
    match cutAtLast ':' cs with
    | some (before, after) => if after.contains ']' then (cs, []) else (before, after)
    | none => (cs, [])
  let host ← host? hostPart
  let port ← port? portPart
  if host = "" then none
  else if port = "" || specialPort? scheme = some port then some host
  else some (host ++ ":" ++ port)

def userInfo (cs : List Char) : String :=
  let (user, password) := cutAt ':' cs
  let user := String.ofList (encode userSet user)
  let password := (password.map (fun p => String.ofList (encode userSet p))).getD ""
  if user = "" && password = "" then ""
  else if password = "" then user ++ "@"
  else user ++ ":" ++ password ++ "@"

def authority? (scheme : String) (cs : List Char) : Option String :=
  match cutAtLast '@' cs with
  | some (user, host) => (hostPort? scheme host).map (userInfo user ++ ·)
  | none => hostPort? scheme cs

def filePart? : List Char → Option (Option String × String)
  | '/' :: '/' :: cs =>
    let host := cs.takeWhile (· ≠ '/')
    if isDrive host then some (some "", normalPath true cs)
    else do
      let host' ← if host = [] then some "" else host? host
      let authority := if host' = "localhost" then "" else host'
      return (some authority, normalPath true (cs.drop host.length))
  | cs => some (some "", normalPath true cs)

def hierarchy? (scheme : String) (cs : List Char) : Option (Option String × String) :=
  if isSpecial scheme then
    let cs := cs.map (fun c => if c = '\\' then '/' else c)
    if scheme = "file" then filePart? cs
    else
      let cs := cs.dropWhile (· = '/')
      let host := cs.takeWhile (· ≠ '/')
      (authority? scheme host).map
        (fun authority => (some authority, normalPath false (cs.drop host.length)))
  else
    match cs with
    | '/' :: '/' :: rest =>
      let host := rest.takeWhile (· ≠ '/')
      let path := rest.drop host.length
      let path := if path = [] then "" else normalPath false path
      if host = [] then some (some "", path)
      else (authority? scheme host).map (fun authority => (some authority, path))
    | '/' :: _ => some (none, normalPath false cs)
    | _ => some (none, String.ofList (encode [] cs))

def isEdgeBlank (c : Char) : Bool := c.toNat ≤ 32

def trimEdges (cs : List Char) : List Char :=
  ((cs.dropWhile isEdgeBlank).reverse.dropWhile isEdgeBlank).reverse

def parse? (s : String) : Option Url := do
  let cs := (trimEdges s.toList).filter (fun c => c ≠ '\t' && c ≠ '\n' && c ≠ '\r')
  let (scheme, cs) ← splitScheme? cs
  let (cs, fragment) := cutAt '#' cs
  let (cs, query) := cutAt '?' cs
  let (authority, path) ← hierarchy? scheme cs
  let querySet := if isSpecial scheme then '\'' :: querySet else querySet
  return {
    scheme := scheme
    authority := authority
    path := path
    query := query.map (fun q => String.ofList (encode querySet q))
    fragment := fragment.map (fun f => String.ofList (encode fragmentSet f)) }

def ofFilePath? (path : String) : Option Url :=
  if Path.isAbsolute path then
    let segments := (Path.normalized path).map
      (fun segment => '/' :: encode segmentSet segment.toList)
    let path := if segments = [] then "/" else String.ofList segments.flatten
    some { scheme := "file", authority := some "", path := path, query := none, fragment := none }
  else none

def percentDecoded : List Char → List UInt8
  | '%' :: a :: b :: cs =>
    match Hex.ofDigits? [a, b] with
    | some n => n.toUInt8 :: percentDecoded cs
    | none => String.utf8EncodeChar '%' ++ percentDecoded (a :: b :: cs)
  | c :: cs => String.utf8EncodeChar c ++ percentDecoded cs
  | [] => []

end Url

end AmbientCatalog
