import AmbientCatalog.Record.Json
import AmbientCatalog.Registry
import AmbientCatalog.Survey

/-!
# The catalog of globals

A catalog is what a survey of the corpus finds: the nodes, registered in order, and the statements
that were passed over. The index of the whole corpus is made before the survey starts.
-/

set_option autoImplicit false

namespace AmbientCatalog

structure Catalog where
  registry : Registry
  diagnostics : List Diagnostic

def Finding.node? : Finding → Option Node
  | entry node => some node
  | unsupported _ => none

def Finding.diagnostic? : Finding → Option Diagnostic
  | entry _ => none
  | unsupported diagnostic => some diagnostic

namespace Catalog

def ofFindings (findings : List Finding) : Catalog :=
  { registry := Registry.empty.saveAll (findings.filterMap Finding.node?)
    diagnostics := findings.filterMap Finding.diagnostic? }

def findings (corpus : Corpus) (options : Options) : Except MemberError (List Finding) :=
  (fun found => found.1) <$> (corpus.setting options).ofFiles corpus.files []

def build (corpus : Corpus) (options : Options) : Except MemberError Catalog :=
  (findings corpus options).map ofFindings

def records (catalog : Catalog) : List (String × List Record) := catalog.registry.records

def toJson (catalog : Catalog) : Json := Record.catalogJson catalog.records

def toPretty (catalog : Catalog) : String := catalog.toJson.toPretty

end Catalog

end AmbientCatalog
