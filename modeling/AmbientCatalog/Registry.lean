import AmbientCatalog.Record

/-!
# The registry of globals

Every global is kept under its id, in the order in which ids were first saved, with its distinct
overloads in the order in which they were first saved. The record of a node is made once, when the
node is saved, and is kept beside it. Placeholders are ignored, and a node whose record equals one
that is already kept under its id is dropped.
-/

set_option autoImplicit false

namespace AmbientCatalog

/-- A node and the record that was made of it when it was saved. -/
structure Overload where
  node : Node
  record : Record

structure Registry where
  table : List (String × List Overload)

namespace Registry

def empty : Registry := ⟨[]⟩

def kept (r : Registry) (name : String) : List Overload := (r.table.lookup name).getD []

def get? (r : Registry) (name : String) : Option (List Node) :=
  (r.table.lookup name).map (List.map Overload.node)

def overloads (r : Registry) (name : String) : List Node := (r.get? name).getD []

def openEntry (name : String) : List (String × List Overload) → List (String × List Overload)
  | [] => [(name, [])]
  | (key, kept) :: rest =>
    if key = name then (key, kept) :: rest else (key, kept) :: openEntry name rest

def push (name : String) (overload : Overload) :
    List (String × List Overload) → List (String × List Overload)
  | [] => []
  | (key, kept) :: rest =>
    if key = name then (key, kept ++ [overload]) :: rest
    else (key, kept) :: push name overload rest

/-- Offers a node under its id, and says whether it was added. The entry is opened before the
overloads in it are compared. -/
def offer (r : Registry) (node : Node) : Bool × Registry :=
  if node.isPlaceholder then (false, r)
  else
    let record := node.record
    let opened : Registry := ⟨openEntry node.id r.table⟩
    if (opened.kept node.id).any (fun overload => overload.record = record) then (false, opened)
    else (true, ⟨push node.id ⟨node, record⟩ opened.table⟩)

def admits (r : Registry) (node : Node) : Bool := (r.offer node).1

def save (r : Registry) (node : Node) : Registry := (r.offer node).2

def saveAll (r : Registry) (nodes : List Node) : Registry := nodes.foldl save r

def contains (r : Registry) (name : String) : Bool := (r.table.lookup name).isSome

def overloadCount (r : Registry) (name : String) : Nat := (r.kept name).length

def names (r : Registry) : List String := r.table.map Prod.fst

def size (r : Registry) : Nat := r.table.length

def isEmpty (r : Registry) : Bool := r.table.isEmpty

def entries (r : Registry) : List (String × List Node) :=
  r.table.map (fun entry => (entry.1, entry.2.map Overload.node))

def records (r : Registry) : List (String × List Record) :=
  r.table.map (fun entry => (entry.1, entry.2.map Overload.record))

end Registry

end AmbientCatalog
