import AmbientCatalog.Path
import AmbientCatalog.Utf8

/-!
# Files in memory

A tree of files given by their paths, each with its bytes. Every directory on the way to a file
exists, and so do the root and the directories named besides. Reading a path resolves `.` and
`..`, and tells a missing file in a known directory from a missing directory.
-/

set_option autoImplicit false

namespace AmbientCatalog

inductive ReadError where
  | fileNotFound
  | pathNotFound
  | notAFile
  | notText (error : Utf8.Error)
  | failed (reason : String)

def ReadError.message : ReadError → String
  | fileNotFound => "File not found"
  | pathNotFound => "Path not found"
  | notAFile => "Path is not a file"
  | notText error => error.message
  | failed reason => reason

structure FileTree where
  files : List (List String × List UInt8)
  directories : List (List String)

namespace FileTree

def empty : FileTree := ⟨[], []⟩

def write (tree : FileTree) (path : String) (bytes : List UInt8) : FileTree :=
  { tree with files := (Path.normalized path, bytes) :: tree.files }

def makeDirectory (tree : FileTree) (path : String) : FileTree :=
  { tree with directories := Path.normalized path :: tree.directories }

def isDirectory (tree : FileTree) (segments : List String) : Bool :=
  segments = []
    || tree.files.any (fun file => segments.isPrefixOf file.1.dropLast)
    || tree.directories.any (fun directory => segments.isPrefixOf directory)

def readBytes (tree : FileTree) (path : String) : Except ReadError (List UInt8) :=
  let segments := Path.normalized path
  match tree.files.lookup segments with
  | some bytes => .ok bytes
  | none =>
    if tree.isDirectory segments then .error .notAFile
    else if tree.isDirectory segments.dropLast then .error .fileNotFound
    else .error .pathNotFound

end FileTree

def textOfBytes (bytes : List UInt8) : Except ReadError String :=
  match Utf8.decode bytes with
  | .ok text => .ok text
  | .error e => .error (.notText e)

def FileTree.readText (tree : FileTree) (path : String) : Except ReadError String :=
  (tree.readBytes path).bind textOfBytes

end AmbientCatalog
