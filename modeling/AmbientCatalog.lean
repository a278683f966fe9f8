import AmbientCatalog.Catalog
import AmbientCatalog.CommandLine
import AmbientCatalog.Corpus
import AmbientCatalog.Describe
import AmbientCatalog.Describe.Classes
import AmbientCatalog.FileTree
import AmbientCatalog.Heritage
import AmbientCatalog.Hex
import AmbientCatalog.Index
import AmbientCatalog.Json.Reader
import AmbientCatalog.Json.Value
import AmbientCatalog.Load
import AmbientCatalog.Main
import AmbientCatalog.MediaType
import AmbientCatalog.Name
import AmbientCatalog.Node
import AmbientCatalog.Path
import AmbientCatalog.Proofs.Agreement
import AmbientCatalog.Proofs.BothWays
import AmbientCatalog.Proofs.Closure
import AmbientCatalog.Proofs.Directories
import AmbientCatalog.Proofs.DottedNames
import AmbientCatalog.Proofs.Doubling
import AmbientCatalog.Proofs.Entries
import AmbientCatalog.Proofs.Expansion
import AmbientCatalog.Proofs.FileIdentities
import AmbientCatalog.Proofs.FileLists
import AmbientCatalog.Proofs.FileOrder
import AmbientCatalog.Proofs.FirstSaves
import AmbientCatalog.Proofs.Flattening
import AmbientCatalog.Proofs.Independence
import AmbientCatalog.Proofs.Indexing
import AmbientCatalog.Proofs.InlinePlans
import AmbientCatalog.Proofs.InlineTypes
import AmbientCatalog.Proofs.Instances
import AmbientCatalog.Proofs.Isolation
import AmbientCatalog.Proofs.LeafOrder
import AmbientCatalog.Proofs.Leaves
import AmbientCatalog.Proofs.MemberKeys
import AmbientCatalog.Proofs.NamedLiterals
import AmbientCatalog.Proofs.NamespaceNodes
import AmbientCatalog.Proofs.Naming
import AmbientCatalog.Proofs.Numbering
import AmbientCatalog.Proofs.ObjectMembers
import AmbientCatalog.Proofs.Operands
import AmbientCatalog.Proofs.Outcome
import AmbientCatalog.Proofs.OwnNodes
import AmbientCatalog.Proofs.Ownership
import AmbientCatalog.Proofs.PassedOver
import AmbientCatalog.Proofs.Passes
import AmbientCatalog.Proofs.Phrases
import AmbientCatalog.Proofs.Plan
import AmbientCatalog.Proofs.Preorder
import AmbientCatalog.Proofs.Rebasing
import AmbientCatalog.Proofs.Recording
import AmbientCatalog.Proofs.Registering
import AmbientCatalog.Proofs.Renaming
import AmbientCatalog.Proofs.Rendering
import AmbientCatalog.Proofs.Requests
import AmbientCatalog.Proofs.Roles
import AmbientCatalog.Proofs.Roots
import AmbientCatalog.Proofs.RoundTrip
import AmbientCatalog.Proofs.Scoping
import AmbientCatalog.Proofs.Shifting
import AmbientCatalog.Proofs.Sides
import AmbientCatalog.Proofs.Spelling
import AmbientCatalog.Proofs.StaticSide
import AmbientCatalog.Proofs.Totality
import AmbientCatalog.Proofs.Trimming
import AmbientCatalog.Proofs.UnusedWords
import AmbientCatalog.Proofs.Walk
import AmbientCatalog.Proofs.Wrappers
import AmbientCatalog.Record
import AmbientCatalog.Record.Json
import AmbientCatalog.Registry
import AmbientCatalog.Role
import AmbientCatalog.Site
import AmbientCatalog.Survey
import AmbientCatalog.Syntax.Cursor
import AmbientCatalog.Syntax.Declarations
import AmbientCatalog.Syntax.Grammar.Bindings
import AmbientCatalog.Syntax.Grammar.Classes
import AmbientCatalog.Syntax.Grammar.Expressions
import AmbientCatalog.Syntax.Grammar.Statements
import AmbientCatalog.Syntax.Grammar.Types
import AmbientCatalog.Syntax.Identifiers
import AmbientCatalog.Syntax.Letter
import AmbientCatalog.Syntax.Rule
import AmbientCatalog.Syntax.Token
import AmbientCatalog.Syntax.Types
import AmbientCatalog.Url
import AmbientCatalog.Utf8
