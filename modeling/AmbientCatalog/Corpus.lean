import AmbientCatalog.MediaType
import AmbientCatalog.Syntax.Identifiers
import AmbientCatalog.Url
import AmbientCatalog.Utf8

/-!
# The corpus

The parsed files of a catalog, in the order in which they were added. The number of a file is its
place in that order. A file that does not parse is not added.
-/

set_option autoImplicit false

namespace AmbientCatalog

structure SourceFile where
  id : Nat
  specifier : String
  mediaType : MediaType
  items : List Item
  named : WellNamed (sitesOf .stepwise specifier "" items)

structure Corpus where
  files : List SourceFile
  placed : ∀ (k : Nat) (file : SourceFile), files[k]? = some file → file.id = k

inductive LoadError where
  | unreadable (path reason : String)
  | unlocatable (path : String)
  | unparsable (specifier : String)
  deriving DecidableEq, Repr

def LoadError.message : LoadError → String
  | unreadable path reason => "Failed reading '" ++ path ++ "'. " ++ reason
  | unlocatable path => "Could not convert '" ++ path ++ "' to a file specifier."
  | unparsable specifier => "Failed parsing '" ++ specifier ++ "'."

def Url.mediaType (url : Url) : MediaType :=
  if url.scheme = "file" then
    match Utf8.decode (percentDecoded url.path.toList) with
    | .ok path => MediaType.ofPath path
    | .error _ => MediaType.ofPath url.path
  else MediaType.ofPath url.path

namespace Corpus

def empty : Corpus := ⟨[], by simp⟩

def size (corpus : Corpus) : Nat := corpus.files.length

def isEmpty (corpus : Corpus) : Bool := corpus.files.isEmpty

def file? (corpus : Corpus) (id : Nat) : Option SourceFile := corpus.files[id]?

theorem id_lt_size (corpus : Corpus) {file : SourceFile} (h : file ∈ corpus.files) :
    file.id < corpus.size := by
  obtain ⟨k, hk, rfl⟩ := List.mem_iff_getElem.mp h
  rw [corpus.placed k _ (List.getElem?_eq_getElem hk)]
  exact hk

def extend (corpus : Corpus) (file : SourceFile) (hid : file.id = corpus.size) : Corpus where
  files := corpus.files ++ [file]
  placed := by
    intro k other hget
    rcases Nat.lt_or_ge k corpus.files.length with hk | hk
    · rw [List.getElem?_append_left hk] at hget
      exact corpus.placed k other hget
    · rw [List.getElem?_append_right hk, List.getElem?_singleton] at hget
      split at hget
      · obtain rfl := Option.some.inj hget
        rw [hid, size]
        omega
      · cases hget

def add (corpus : Corpus) (url : Url) (text : String) : Except LoadError Corpus :=
  match h : Syntax.parse? url.mediaType.isTyped text with
  | none => .error (.unparsable url.text)
  | some items =>
    .ok (corpus.extend
      { id := corpus.size
        specifier := url.text
        mediaType := url.mediaType
        items := items
        named := Syntax.parse?_wellNamed h .stepwise url.text "" } rfl)

end Corpus

end AmbientCatalog
