import AmbientCatalog.Corpus
import AmbientCatalog.Describe.Classes
import AmbientCatalog.Heritage

/-!
# The survey of a corpus

The statements of a corpus are walked in order, with the scope that the namespaces around them
make. Each declaration yields nodes to be registered, and each statement that declares nothing the
catalog can describe yields a diagnostic. An interface is described at most once for a variable,
at whichever of the two is reached first; the index of the whole corpus decides what it says about
the variable.
-/

set_option autoImplicit false

namespace AmbientCatalog

structure Options where
  -- Give the members of `Object` to every other described interface.
  objectHeritage : Bool := true
  -- Register a node for every namespace.
  namespaceNodes : Bool := true
  deriving DecidableEq, Repr

structure Diagnostic where
  specifier : String
  position : Position
  deriving DecidableEq, Repr

def Diagnostic.message (d : Diagnostic) : String :=
  "Unsupported statement at " ++ d.specifier ++ ":" ++ d.position.line.repr ++ ":"
    ++ d.position.column.repr

inductive Finding where
  | entry (node : Node)
  | unsupported (diagnostic : Diagnostic)

abbrev Survey := StateT (List (String × String)) (Except MemberError)

structure Setting where
  index : FiledIndex
  options : Options

abbrev Corpus.setting (corpus : Corpus) (options : Options) : Setting :=
  ⟨corpus.filedIndex, options⟩

def objectName : String := "Object"

def objectConstructorName : String := "ObjectConstructor"

namespace Setting

def roleOf (s : Setting) (interface binding : String) (type : Option String) : Option Role :=
  Role.classify interface binding
    (type.map (fun name => (s.index.lookup name (Name.parent binding)).getD name))

def takesObject (s : Setting) (interface : String) : Bool :=
  s.options.objectHeritage && interface ≠ objectName && interface ≠ objectConstructorName
    && s.index.hasInterface objectName

def interfaceNodes (s : Setting) (interface : String) (role : Role) (binding : String) :
    Except MemberError (List Node) := do
  let depth := Heritage.depthFor s.index
  let scope := role.scope binding
  let (own, visited) ← Heritage.members s.index role depth interface scope [interface]
  if s.takesObject interface && objectName ∉ visited then
    let (object, _) ←
      Heritage.inherited s.index role depth scope objectName (objectName :: visited)
    return own ++ object
  else return own

/-- Describes an interface for a variable, the first time it is asked for. -/
def describeInterface (s : Setting) (interface : String) (role : Role) (binding : String) :
    Survey (List Node) := do
  if (interface, binding) ∈ (← get) then return []
  else
    modify (fun done => (interface, binding) :: done)
    liftM (s.interfaceNodes interface role binding)

def describeInstances (s : Setting) (binding : String) : List String → Survey (List Node)
  | [] => return []
  | interface :: rest => do
    let nodes ←
      if interface = binding then pure []
      else s.describeInterface interface .instanceSide binding
    let others ← s.describeInstances binding rest
    return nodes ++ others

def constructed (s : Setting) (interface : String) : List String :=
  let scope := Name.parent interface
  let results := (s.index.interfaces interface).flatMap (fun decl =>
    decl.members.filterMap (fun member =>
      match member with
      | .construct (.mk _ _ (some type)) =>
        type.simpleName?.bind (fun name => s.index.lookup name scope)
      | _ => none))
  results.eraseDups

def ownInterface (s : Setting) (binding : String) (type : Option String) :
    Survey (Option (List Node)) := do
  if s.index.hasInterface binding then
    match s.roleOf binding binding type with
    | some role => some <$> s.describeInterface binding role binding
    | none => return none
  else return none

def typeInterface (s : Setting) (binding interface : String) (type : Option String) :
    Survey (Option (List Node)) := do
  if interface ≠ binding then
    match s.roleOf interface binding type with
    | some role => some <$> s.describeInterface interface role binding
    | none => return none
  else return none

def instances (s : Setting) (binding interface : String) : Survey (List Node) := do
  if !s.index.hasInterface binding && s.index.isConstructorType interface then
    s.describeInstances binding (s.constructed interface)
  else return []

def inlineMembers (binding : String) : TypeExpr → Survey (Option (List Node))
  | .literalType members => liftM do
    return some (← members.mapM (Member.resolve binding true))
  | _ => return none

def describedVariable (s : Setting) (binding scope : String) :
    Option TypeExpr → Survey (List Node × Bool)
  | none => return ([], false)
  | some (.keyword _) => return ([], false)
  | some type => do
    let typeName := type.simpleName?
    let own ← s.ownInterface binding typeName
    let (typed, built) ←
      match typeName.bind (fun name => s.index.lookup name scope) with
      | some interface => do
        let typed ← s.typeInterface binding interface typeName
        let built ← s.instances binding interface
        pure (typed, built)
      | none => pure (none, [])
    let inline ← inlineMembers binding type
    return (own.getD [] ++ typed.getD [] ++ built ++ inline.getD [],
      own.isSome || typed.isSome || inline.isSome)

def variableNode (decl : VariableDecl) (binding : String) (type : Option TypeExpr) : Node :=
  { id := binding
    kind := .variableDeclaration
    name := binding
    returns := described (describeMaybe type)
    tags := (TagSet.empty.insertIf decl.isConst .isReadonly).insertIf decl.isDeclared .isDeclared }

def ofVariable (s : Setting) (scope : String) (decl : VariableDecl) :
    Declarator → Survey (List Node)
  | .destructured => return []
  | .ident name type => do
    let binding := Name.qualify name scope
    let (nodes, isDescribed) ← s.describedVariable binding scope type
    return if isDescribed then nodes else nodes ++ [variableNode decl binding type]

def ofVariables (s : Setting) (scope : String) (decl : VariableDecl) :
    List Declarator → Survey (List Node)
  | [] => return []
  | declarator :: rest => do
    let nodes ← s.ofVariable scope decl declarator
    let others ← s.ofVariables scope decl rest
    return nodes ++ others

def functionNode (scope : String) (decl : FunctionDecl) : Node :=
  let name := Name.qualify decl.name scope
  described (decl.signature.describe
    { id := name
      kind := .functionDeclaration
      name := name
      tags := TagSet.empty.insertIf decl.isDeclared .isDeclared })

/-- A function outside every namespace counts only if some declaration gives its name a type. -/
def ofFunction (s : Setting) (scope : String) (decl : FunctionDecl) : List Node :=
  if scope = "" && !s.index.isKnown (Name.qualify decl.name scope) then []
  else [functionNode scope decl]

def ofInterface (s : Setting) (scope : String) (decl : InterfaceDecl) : Survey (List Node) := do
  let name := Name.qualify decl.name scope
  match s.index.bindingOf name with
  | none => return []
  | some binding =>
    match s.roleOf name binding.name binding.typeName with
    | some role => s.describeInterface name role binding.name
    | none => return [Node.placeholder name]

def namespaceNode (isDeclared : Bool) (name : String) : Node :=
  { id := name
    kind := .moduleDeclaration
    name := name
    tags := TagSet.empty.insertIf isDeclared .isDeclared }

def namespaceNodes (isDeclared : Bool) (scope : String) : List String → List Node × String
  | [] => ([], scope)
  | part :: parts =>
    let name := Name.qualify part scope
    let (nodes, inner) := namespaceNodes isDeclared name parts
    (namespaceNode isDeclared name :: nodes, inner)

def entries (nodes : List Node) : List Finding := nodes.map .entry

mutual
def ofDecl (s : Setting) (specifier : String) (scope : String) (start : Position) :
    Decl → Survey (List Finding)
  | .functionDecl decl => return entries (s.ofFunction scope decl)
  | .variableDecl decl => return entries (← s.ofVariables scope decl decl.declarators)
  | .interfaceDecl decl => return entries (← s.ofInterface scope decl)
  | .classDecl decl => return entries (decl.nodes scope)
  | .namespaceDecl isDeclared parts items => do
    let (nodes, inner) := namespaceNodes isDeclared scope parts
    let found ← s.ofItems specifier inner items
    return entries (if s.options.namespaceNodes then nodes else []) ++ found
  | .globalBlock items => s.ofItems specifier scope items
  | .outsideModule => return []
  | .aliasDecl _ _ => return []
  | .enumDecl => return [.unsupported ⟨specifier, start⟩]
  | .usingDecl => return [.unsupported ⟨specifier, start⟩]

def ofContent (s : Setting) (specifier : String) (scope : String) (start : Position) :
    Content → Survey (List Finding)
  | .plain decl => s.ofDecl specifier scope start decl
  | .exported decl => s.ofDecl specifier scope start decl
  | .empty => return []
  | .other => return [.unsupported ⟨specifier, start⟩]

def ofItem (s : Setting) (specifier : String) (scope : String) : Item → Survey (List Finding)
  | .mk start content => s.ofContent specifier scope start content

def ofItems (s : Setting) (specifier : String) (scope : String) :
    List Item → Survey (List Finding)
  | [] => return []
  | item :: rest => do
    let found ← s.ofItem specifier scope item
    let others ← s.ofItems specifier scope rest
    return found ++ others
end

def ofFiles (s : Setting) : List SourceFile → Survey (List Finding)
  | [] => return []
  | file :: rest => do
    let found ← s.ofItems file.specifier "" file.items
    let others ← s.ofFiles rest
    return found ++ others

end Setting

end AmbientCatalog
