import AmbientCatalog.Load

/-!
# The command line

Arguments are files, the option `--files-from` with the path of a list of further files, and two
switches that turn off parts of the catalog. Values are collected for one option at a time and
checked when the next option or the end is reached, so of two faults the one that is completed
first is reported.
-/

set_option autoImplicit false

namespace AmbientCatalog.CommandLine

inductive UsageError where
  | unknownArgument
  | invalidValue
  | argumentConflict
  | tooManyValues
  | displayHelp
  | displayVersion
  deriving DecidableEq, Repr

structure Invocation where
  files : List String := []
  listFile : Option String := none
  options : Options := {}
  deriving DecidableEq, Repr

inductive Pending where
  | nothing
  | files (values : List String)
  | list (value : Option String)

structure Reading where
  invocation : Invocation := {}
  pending : Pending := .nothing
  -- Everything is a file from here on.
  trailing : Bool := false

namespace Reading

def settle (r : Reading) : Except UsageError Reading :=
  match r.pending with
  | .nothing => .ok r
  | .files values =>
    if values.contains "" then .error .invalidValue
    else
      .ok { r with
        invocation := { r.invocation with files := r.invocation.files ++ values }
        pending := .nothing }
  | .list none => .error .invalidValue
  | .list (some value) =>
    if r.invocation.listFile.isSome then .error .argumentConflict
    else if value = "" then .error .invalidValue
    else
      .ok { r with
        invocation := { r.invocation with listFile := some value }
        pending := .nothing }

def switch (r : Reading) (isOn : Bool) (options : Options) : Except UsageError Reading := do
  let r ← r.settle
  if isOn then .error .argumentConflict
  else .ok { r with invocation := { r.invocation with options := options } }

def request (r : Reading) (what : UsageError) : Except UsageError Reading := do
  let _ ← r.settle
  .error what

def file (r : Reading) (value : String) : Except UsageError Reading :=
  match r.pending with
  | .files values => .ok { r with pending := .files (values ++ [value]) }
  | _ => do
    let r ← r.settle
    .ok { r with pending := .files [value] }

def value (r : Reading) (text : String) : Except UsageError Reading :=
  match r.pending with
  | .list none => .ok { r with pending := .list (some text) }
  | _ => r.file text

def long (r : Reading) (name : String) (attached : Option String) : Except UsageError Reading :=
  match name, attached with
  | "files-from", none => do
    let r ← r.settle
    .ok { r with pending := .list none }
  | "files-from", some value => do
    let r ← r.settle
    { r with pending := .list (some value) }.settle
  | "no-object-heritage", none =>
    r.switch (!r.invocation.options.objectHeritage)
      { r.invocation.options with objectHeritage := false }
  | "no-namespace-nodes", none =>
    r.switch (!r.invocation.options.namespaceNodes)
      { r.invocation.options with namespaceNodes := false }
  | "help", none => r.request .displayHelp
  | "version", none => r.request .displayVersion
  | name, some _ =>
    if ["no-object-heritage", "no-namespace-nodes", "help", "version"].contains name then
      .error .tooManyValues
    else .error .unknownArgument
  | _, none => .error .unknownArgument

def short (r : Reading) (letter : Char) : Except UsageError Reading :=
  if letter = 'h' then r.request .displayHelp
  else if letter = 'V' then r.request .displayVersion
  else .error .unknownArgument

def splitEquals (cs : List Char) : String × Option String :=
  let name := cs.takeWhile (· ≠ '=')
  match cs.drop name.length with
  | _ :: value => (String.ofList name, some (String.ofList value))
  | [] => (String.ofList name, none)

def step (r : Reading) (argument : String) : Except UsageError Reading :=
  if r.trailing then r.file argument
  else
    match argument.toList with
    | ['-', '-'] => .ok { r with trailing := true }
    | '-' :: '-' :: cs =>
      let (name, attached) := splitEquals cs
      r.long name attached
    | '-' :: letter :: _ => r.short letter
    | _ => r.value argument

end Reading

def parse (arguments : List String) : Except UsageError Invocation := do
  let r ← arguments.foldlM Reading.step {}
  let r ← r.settle
  return r.invocation

def isBlank (c : Char) : Bool :=
  (9 ≤ c.toNat && c.toNat ≤ 13) || c.toNat = 0x20 || c.toNat = 0x85 || c.toNat = 0xA0
    || c.toNat = 0x1680 || (0x2000 ≤ c.toNat && c.toNat ≤ 0x200A) || c.toNat = 0x2028
    || c.toNat = 0x2029 || c.toNat = 0x202F || c.toNat = 0x205F || c.toNat = 0x3000

def trim (cs : List Char) : List Char :=
  ((cs.dropWhile isBlank).reverse.dropWhile isBlank).reverse

def lines : List Char → List (List Char)
  | [] => [[]]
  | '\n' :: cs => [] :: lines cs
  | c :: cs =>
    match lines cs with
    | [] => [[c]]
    | line :: rest => (c :: line) :: rest

def isListed (line : List Char) : Bool := line ≠ [] && line.head? ≠ some '#'

def listedPaths (text base : String) : List String :=
  (((lines text.toList).map trim).filter isListed).map
    (fun line => Path.join base (String.ofList line))

def givenPaths (directory : String) (invocation : Invocation) : List String :=
  invocation.files.map (Path.join directory)

inductive RunError where
  | noFiles
  | unreadableList (path : String)
  | build (error : BuildError)

def RunError.message : RunError → String
  | noFiles => "No declaration files were provided."
  | unreadableList path => "Failed reading '" ++ path ++ "'."
  | build (.load e) => e.message
  | build (.resolve e) => e.message

variable {m : Type → Type} [Monad m]

def collectPaths (read : String → m (Except ReadError String)) (directory : String)
    (invocation : Invocation) : m (Except RunError (List String)) := do
  let given := givenPaths directory invocation
  match invocation.listFile with
  | none => return .ok given
  | some list =>
    let path := Path.join directory list
    match ← read path with
    | .error _ => return .error (.unreadableList path)
    | .ok text => return .ok (given ++ listedPaths text ((Path.parent? path).getD directory))

def run (read : String → m (Except ReadError String)) (directory : String)
    (invocation : Invocation) : m (Except RunError String) := do
  match ← collectPaths read directory invocation with
  | .error e => return .error e
  | .ok [] => return .error .noFiles
  | .ok paths =>
    match ← Catalog.load read paths invocation.options with
    | .error e => return .error (.build e)
    | .ok catalog => return .ok (catalog.toPretty ++ "\n")

end AmbientCatalog.CommandLine
