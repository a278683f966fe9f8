import AmbientCatalog.Json.Reader
import AmbientCatalog.Record

/-!
# Records as JSON

A record is written as an object with its eight fields in a fixed order. It is read from such an
object in any order, with unknown keys ignored and repeated known keys refused, or from an array
of the eight values. A record and its child lists are two levels of nesting and the reader refuses
more than 127 levels, which bounds the depth of a record tree.

A catalog is written as an object of arrays of records, and read back with its names in order.
-/

set_option autoImplicit false

namespace AmbientCatalog.Record

def textJson : Option String → Json
  | some s => Json.text s
  | none => .null

mutual
def toJson : Record → Json
  | ⟨id, kind, name, returns, params, generics, text, tags⟩ =>
    .object
      [(some "id", Json.text id),
        (some "kind", Json.text kind),
        (some "name", Json.text name),
        (some "returns", .array (toJsons returns)),
        (some "params", .array (toJsons params)),
        (some "generics", .array (toJsons generics)),
        (some "text", textJson text),
        (some "meta", .array (tags.map Json.text))]

def toJsons : List Record → List Json
  | [] => []
  | record :: records => toJson record :: toJsons records
end

def field (key : String) (fields : List (Option String × Json)) : Option (Option Json) :=
  match fields.filter (fun field => field.1 = some key) with
  | [] => some none
  | [field] => some (some field.2)
  | _ => none

def required (key : String) (fields : List (Option String × Json)) : Option Json :=
  (field key fields).join

def asText : Json → Option String
  | .string content => content
  | _ => none

def asMaybeText : Json → Option (Option String)
  | .null => some none
  | j => (asText j).map some

def asItems : Json → Option (List Json)
  | .array items => some items
  | _ => none

def asTexts (j : Json) : Option (List String) := do
  (← asItems j).mapM asText

/-- The deepest record tree that stays within 127 levels of nesting. -/
def depthLimit : Nat := 63

def parts : Json → Option (List Json)
  | .object fields =>
    if fields.any (fun field => field.1.isNone) then none
    else do
      let text ← field "text" fields
      return [← required "id" fields, ← required "kind" fields, ← required "name" fields,
        ← required "returns" fields, ← required "params" fields, ← required "generics" fields,
        text.getD .null, ← required "meta" fields]
  | .array items => some items
  | _ => none

def ofJson : Nat → Json → Option Record
  | 0, _ => none
  | depth + 1, j => do
    match ← parts j with
    | [id, kind, name, returns, params, generics, text, tags] =>
      let children (list : Json) : Option (List Record) := do
        (← asItems list).mapM (ofJson depth)
      return {
        id := ← asText id
        kind := ← asText kind
        name := ← asText name
        returns := ← children returns
        params := ← children params
        generics := ← children generics
        text := ← asMaybeText text
        tags := ← asTexts tags }
    | _ => none

def parse? (s : String) : Option Record := do
  ofJson depthLimit (← Json.parse? s)

def catalogJson (catalog : List (String × List Record)) : Json :=
  .object (catalog.map (fun entry => (some entry.1, .array (entry.2.map toJson))))

def catalogDepthLimit : Nat := 62

def entryOfJson (depth : Nat) (field : Option String × Json) : Option (String × List Record) := do
  return (← field.1, ← (← asItems field.2).mapM (ofJson depth))

def enter (name : String) (records : List Record) :
    List (String × List Record) → List (String × List Record)
  | [] => [(name, records)]
  | entry :: entries =>
    if entry.1 = name then (name, records) :: entries
    else entry :: enter name records entries

def catalogOfJson (depth : Nat) : Json → Option (List (String × List Record))
  | .object fields => do
    let entries ← fields.mapM (entryOfJson depth)
    return entries.foldl (fun entries entry => enter entry.1 entry.2 entries) []
  | _ => none

def parseCatalog? (depth : Nat) (s : String) : Option (List (String × List Record)) := do
  catalogOfJson depth (← Json.parse? s)

end AmbientCatalog.Record
