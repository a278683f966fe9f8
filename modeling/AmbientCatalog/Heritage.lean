import AmbientCatalog.Describe
import AmbientCatalog.Index
import AmbientCatalog.Role

/-!
# Members and inheritance

An interface has the members of all its declarations and, after those of each declaration, the
members of the interfaces that declaration extends. No interface is expanded twice for the same
variable, so cycles end; a search that still went too deep would fail. A parent's members are
described under the parent's own name and then moved to the child's.
-/

set_option autoImplicit false

namespace AmbientCatalog

/-- Why members cannot be described: one of them is named by its scope alone and the scope is
empty, or the search through the bases went deeper than it was allowed to. -/
inductive MemberError where
  | namelessCall
  | namelessConstruct
  | tooDeep
  deriving DecidableEq, Repr

def MemberError.message : MemberError → String
  | namelessCall => "Cannot resolve a call signature without a qualifying name."
  | namelessConstruct => "Cannot resolve a construct signature without a qualifying name."
  | tooDeep => "Cannot follow the bases of an interface any further."

def Member.needsScope : Member → Option MemberError
  | .call _ => some .namelessCall
  | .construct _ => some .namelessConstruct
  | _ => none

def Member.resolve (scope : String) (isStatic : Bool) (member : Member) :
    Except MemberError Node :=
  match if scope = "" then member.needsScope else none with
  | some e => .error e
  | none =>
    let node := described (member.describe scope)
    .ok (if isStatic then node.tagged .isStatic else node)

namespace Heritage

abbrev Gathered := List Node × List String

def baseName? (index : Index) (scope : String) (base : Expr) : Option String :=
  base.entityText.bind (fun name => index.lookup name scope)

def ofBases (index : Index) (scope : String)
    (expand : String → List String → Except MemberError Gathered) :
    List Expr → List String → Except MemberError Gathered
  | [], visited => .ok ([], visited)
  | base :: bases, visited =>
    match baseName? index scope base with
    | none => ofBases index scope expand bases visited
    | some parent =>
      if parent ∈ visited then ofBases index scope expand bases visited
      else do
        let (inherited, visited) ← expand parent (parent :: visited)
        let (others, visited) ← ofBases index scope expand bases visited
        return (inherited ++ others, visited)

def ofDecls (index : Index) (scope : String) (describe : Member → Except MemberError Node)
    (expand : String → List String → Except MemberError Gathered) :
    List InterfaceDecl → List String → Except MemberError Gathered
  | [], visited => .ok ([], visited)
  | decl :: decls, visited => do
    let own ← decl.members.mapM describe
    let (inherited, visited) ← ofBases index scope expand decl.bases visited
    let (others, visited) ← ofDecls index scope describe expand decls visited
    return (own ++ inherited ++ others, visited)

def moved (role : Role) (expand : String → String → List String → Except MemberError Gathered)
    (target parent : String) (visited : List String) : Except MemberError Gathered := do
  let own := role.scope parent
  let (nodes, visited) ← expand parent own visited
  return (nodes.map (Node.rebase own target), visited)

/-- All members of an interface, named under a scope. The first number bounds the chains of
inheritance that are followed. -/
def members (index : FiledIndex) (role : Role) :
    Nat → String → String → List String → Except MemberError Gathered
  | 0, _, _, _ => .error .tooDeep
  | depth + 1, name, scope, visited =>
    ofDecls index (Name.parent name) (Member.resolve scope role.isStatic)
      (moved role (members index role depth) scope) (index.declared name) visited

/-- The members of a parent interface, as a child inherits them under its own scope. -/
def inherited (index : FiledIndex) (role : Role) (depth : Nat) (scope parent : String)
    (visited : List String) : Except MemberError Gathered :=
  moved role (members index role depth) scope parent visited

/-- A chain of inheritance visits no interface twice, so it is no longer than this. -/
def depthFor (index : Index) : Nat := index.containers.length + 1

end Heritage

end AmbientCatalog
