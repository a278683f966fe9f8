import AmbientCatalog.Catalog
import AmbientCatalog.FileTree

/-!
# Loading files

Paths are loaded in order: each is turned into a URL, read, and parsed, and the first failure ends
the whole load. How a file is read is left to the caller, in whatever monad it reads.
-/

set_option autoImplicit false

namespace AmbientCatalog

inductive BuildError where
  | load (error : LoadError)
  | resolve (error : MemberError)

def Corpus.addRead (corpus : Corpus) (path : String) (url : Url) :
    Except ReadError String → Except LoadError Corpus
  | .ok text => corpus.add url text
  | .error e => .error (.unreadable path e.message)

variable {m : Type → Type} [Monad m]

def Corpus.load (read : String → m (Except ReadError String)) (corpus : Corpus) :
    List String → m (Except LoadError Corpus)
  | [] => return .ok corpus
  | path :: paths => do
    match Url.ofFilePath? path with
    | none => return .error (.unlocatable path)
    | some url =>
      match corpus.addRead path url (← read path) with
      | .error e => return .error e
      | .ok corpus => corpus.load read paths

def Catalog.load (read : String → m (Except ReadError String)) (paths : List String)
    (options : Options) : m (Except BuildError Catalog) := do
  match ← Corpus.empty.load read paths with
  | .error e => return .error (.load e)
  | .ok corpus =>
    match Catalog.build corpus options with
    | .error e => return .error (.resolve e)
    | .ok catalog => return .ok catalog

end AmbientCatalog
