import AmbientCatalog.Path

/-!
# Media types

What a file holds is known by the extension of its path. Files of an unknown kind are taken for
declaration files. Only some kinds have type syntax.
-/

set_option autoImplicit false

namespace AmbientCatalog

inductive MediaType where
  | javaScript
  | jsx
  | mjs
  | cjs
  | typeScript
  | mts
  | cts
  | dts
  | dmts
  | dcts
  | tsx
  | css
  | json
  | html
  | sql
  | wasm
  | sourceMap
  deriving DecidableEq, Repr

namespace MediaType

def text : MediaType → String
  | javaScript => "JavaScript"
  | jsx => "JSX"
  | mjs => "Mjs"
  | cjs => "Cjs"
  | typeScript => "TypeScript"
  | mts => "Mts"
  | cts => "Cts"
  | dts => "Dts"
  | dmts => "Dmts"
  | dcts => "Dcts"
  | tsx => "TSX"
  | css => "Css"
  | json => "Json"
  | html => "Html"
  | sql => "Sql"
  | wasm => "Wasm"
  | sourceMap => "SourceMap"

def isTyped : MediaType → Bool
  | typeScript => true
  | mts => true
  | cts => true
  | dts => true
  | dmts => true
  | dcts => true
  | tsx => true
  | _ => false

def declarationOr (stem : String) (declaration plain : MediaType) : MediaType :=
  if ".d".toList.isSuffixOf stem.toList then declaration else plain

def ofPath (path : String) : MediaType :=
  let (stem, extension) := Path.splitExtension (Path.fileName path)
  match extension.map String.toLower with
  | some "ts" => declarationOr stem dts typeScript
  | some "mts" => declarationOr stem dmts mts
  | some "cts" => declarationOr stem dcts cts
  | some "tsx" => tsx
  | some "js" => javaScript
  | some "jsx" => jsx
  | some "mjs" => mjs
  | some "cjs" => cjs
  | some "css" => css
  | some "json" => json
  | some "html" => html
  | some "sql" => sql
  | some "wasm" => wasm
  | some "map" => sourceMap
  | _ => dts

end MediaType

end AmbientCatalog
