import AmbientCatalog.Node

/-!
# Written records

A record is the plain form of a node, as it is written out: the kind and the tags are texts, and
the hidden tag is left out. Two nodes are the same overload when their records are equal, so the
equality of records is decidable.
-/

set_option autoImplicit false

namespace AmbientCatalog

structure Record where
  id : String
  kind : String
  name : String
  returns : List Record
  params : List Record
  generics : List Record
  text : Option String
  tags : List String

namespace Record

mutual
def decEq : (a b : Record) → Decidable (a = b)
  | ⟨id, kind, name, returns, params, generics, text, tags⟩,
    ⟨id', kind', name', returns', params', generics', text', tags'⟩ =>
    if hhead : id = id' ∧ kind = kind' ∧ name = name' ∧ text = text' ∧ tags = tags' then
      match decEqs returns returns', decEqs params params', decEqs generics generics' with
      | isTrue hr, isTrue hp, isTrue hg => isTrue (by simp_all)
      | isFalse h, _, _ => isFalse (by simp_all)
      | _, isFalse h, _ => isFalse (by simp_all)
      | _, _, isFalse h => isFalse (by simp_all)
    else isFalse (fun h => hhead (by simp_all))

def decEqs : (as bs : List Record) → Decidable (as = bs)
  | [], [] => isTrue rfl
  | [], _ :: _ => isFalse (by simp)
  | _ :: _, [] => isFalse (by simp)
  | a :: as, b :: bs =>
    match decEq a b, decEqs as bs with
    | isTrue h, isTrue hs => isTrue (by simp_all)
    | isFalse h, _ => isFalse (by simp_all)
    | _, isFalse h => isFalse (by simp_all)
end

instance : DecidableEq Record := decEq

end Record

def TagSet.texts (s : TagSet) : List String := s.toList.filterMap Tag.text

mutual
def Node.record : Node → Record
  | ⟨id, kind, name, returns, params, generics, text, tags⟩ =>
    { id := id
      kind := kind.text
      name := name
      returns := Node.records returns
      params := Node.records params
      generics := Node.records generics
      text := text
      tags := tags.texts }

def Node.records : List Node → List Record
  | [] => []
  | node :: nodes => node.record :: Node.records nodes
end

end AmbientCatalog
