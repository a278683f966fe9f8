import AmbientCatalog.Corpus

/-!
# The index of declarations

Whether an interface describes a variable can depend on a declaration in any file, so the whole
corpus is indexed first: the declared type name of every variable and function, the last variable
declared with each type, the interfaces that can construct, and every interface and namespace with
its file. Names are qualified by the namespaces around them. Later declarations win in the two
name tables. The index goes with its corpus, so that the file of a declaration can be looked up.
-/

set_option autoImplicit false

namespace AmbientCatalog

def complexTypeName : String := "__type"

inductive Container where
  | interface (decl : InterfaceDecl)
  | namespaceBlock

structure ContainerEntry where
  name : String
  file : Nat
  container : Container

def ContainerEntry.interface? (entry : ContainerEntry) : Option InterfaceDecl :=
  match entry.container with
  | .interface decl => some decl
  | .namespaceBlock => none

/-- Cross references over a corpus. The two name tables have the newest entry first; the
containers are in document order. -/
structure Index where
  declaredTypes : List (String × String) := []
  typedNames : List (String × String) := []
  constructorTypes : List String := []
  containers : List ContainerEntry := []

structure Binding where
  name : String
  typeName : Option String
  deriving DecidableEq, Repr

namespace Index

def addContainer (index : Index) (name : String) (file : Nat) (container : Container) : Index :=
  { index with containers := index.containers ++ [⟨name, file, container⟩] }

def addFunction (scope : String) (decl : FunctionDecl) (index : Index) : Index :=
  match decl.signature.result with
  | none => index
  | some type =>
    let typeName := type.simpleName?.getD complexTypeName
    { index with
      declaredTypes := (Name.qualify decl.name scope, typeName) :: index.declaredTypes }

def addDeclarator (scope : String) (index : Index) : Declarator → Index
  | .ident name (some type) =>
    let binding := Name.qualify name scope
    match type.simpleName? with
    | some typeName =>
      { index with
        typedNames := (Name.qualify typeName scope, binding) :: index.typedNames
        declaredTypes := (binding, typeName) :: index.declaredTypes }
    | none =>
      { index with declaredTypes := (binding, complexTypeName) :: index.declaredTypes }
  | .ident _ none => index
  | .destructured => index

def addInterface (file : Nat) (scope : String) (decl : InterfaceDecl) (index : Index) : Index :=
  let name := Name.qualify decl.name scope
  let index :=
    if decl.members.any Member.isConstruct then
      { index with constructorTypes := name :: index.constructorTypes }
    else index
  index.addContainer name file (.interface decl)

mutual
def addDecl (file : Nat) (scope : String) (index : Index) : Decl → Index
  | .functionDecl decl => index.addFunction scope decl
  | .variableDecl decl => decl.declarators.foldl (addDeclarator scope) index
  | .interfaceDecl decl => index.addInterface file scope decl
  | .namespaceDecl _ parts items =>
    let name := Name.qualify (".".intercalate parts) scope
    addItems file name (index.addContainer name file .namespaceBlock) items
  | .globalBlock items => addItems file scope index items
  | .classDecl _ => index
  | .outsideModule => index
  | .aliasDecl _ _ => index
  | .enumDecl => index
  | .usingDecl => index

def addContent (file : Nat) (scope : String) (index : Index) : Content → Index
  | .plain decl => addDecl file scope index decl
  | .exported decl => addDecl file scope index decl
  | .empty => index
  | .other => index

def addItem (file : Nat) (scope : String) (index : Index) : Item → Index
  | .mk _ content => addContent file scope index content

def addItems (file : Nat) (scope : String) (index : Index) : List Item → Index
  | [] => index
  | item :: items => addItems file scope (addItem file scope index item) items
end

def typeOf (index : Index) (name : String) : Option String := index.declaredTypes.lookup name

def nameOfType (index : Index) (typeName : String) : Option String :=
  index.typedNames.lookup typeName

def isKnown (index : Index) (name : String) : Bool := (index.typeOf name).isSome

def isConstructorType (index : Index) (name : String) : Bool := index.constructorTypes.contains name

def containersOf (index : Index) (name : String) : List ContainerEntry :=
  index.containers.filter (fun entry => entry.name = name)

def interfaceEntries (index : Index) (name : String) : List (Nat × InterfaceDecl) :=
  (index.containersOf name).filterMap
    (fun entry => entry.interface?.map (fun decl => (entry.file, decl)))

def interfaces (index : Index) (name : String) : List InterfaceDecl :=
  (index.interfaceEntries name).map Prod.snd

def hasInterface (index : Index) (name : String) : Bool := !(index.interfaces name).isEmpty

/-- The interface that a type name means inside a scope, searched from the innermost scope
outwards. -/
def lookup (index : Index) (name scope : String) : Option String :=
  ((Name.enclosing scope).map (Name.qualify name)).find? index.hasInterface

/-- The variable an interface is about: the one with its name, or else the last one declared with
it as the type. -/
def bindingOf (index : Index) (name : String) : Option Binding :=
  match index.typeOf name with
  | some typeName => some ⟨name, some typeName⟩
  | none => (index.nameOfType name).map (fun binding => ⟨binding, index.typeOf binding⟩)

def Below (bound : Nat) (index : Index) : Prop := ∀ entry ∈ index.containers, entry.file < bound

variable {bound file : Nat}

theorem Below.addContainer {index : Index} (h : index.Below bound) (hfile : file < bound)
    (name : String) (container : Container) :
    (index.addContainer name file container).Below bound := by
  intro entry hentry
  rcases List.mem_append.mp hentry with hold | hnew
  · exact h entry hold
  · rw [List.mem_singleton.mp hnew]
    exact hfile

theorem addFunction_containers (scope : String) (decl : FunctionDecl) (index : Index) :
    (index.addFunction scope decl).containers = index.containers := by
  unfold addFunction
  split <;> rfl

theorem addDeclarator_containers (scope : String) (index : Index) (declarator : Declarator) :
    (index.addDeclarator scope declarator).containers = index.containers := by
  unfold addDeclarator
  split
  · split <;> rfl
  · rfl
  · rfl

theorem addDeclarators_containers (scope : String) (declarators : List Declarator)
    (index : Index) :
    (declarators.foldl (addDeclarator scope) index).containers = index.containers := by
  induction declarators generalizing index with
  | nil => rfl
  | cons declarator declarators ih =>
    exact (ih _).trans (index.addDeclarator_containers scope declarator)

theorem Below.addInterface {index : Index} (h : index.Below bound) (hfile : file < bound)
    (scope : String) (decl : InterfaceDecl) : (index.addInterface file scope decl).Below bound := by
  unfold Index.addInterface
  split
  · exact Below.addContainer h hfile _ _
  · exact Below.addContainer h hfile _ _

mutual
theorem Below.addDecl (hfile : file < bound) (scope : String) {index : Index}
    (h : index.Below bound) : ∀ decl : Decl, (index.addDecl file scope decl).Below bound
  | .functionDecl decl => by
    rw [Index.addDecl, Below, addFunction_containers]
    exact h
  | .variableDecl decl => by
    rw [Index.addDecl, Below, addDeclarators_containers]
    exact h
  | .interfaceDecl decl => by
    rw [Index.addDecl]
    exact h.addInterface hfile scope decl
  | .namespaceDecl _ parts items => by
    rw [Index.addDecl]
    exact Below.addItems hfile _ (h.addContainer hfile _ _) items
  | .globalBlock items => by
    rw [Index.addDecl]
    exact Below.addItems hfile scope h items
  | .classDecl _ => by rwa [Index.addDecl]
  | .outsideModule => by rwa [Index.addDecl]
  | .aliasDecl _ _ => by rwa [Index.addDecl]
  | .enumDecl => by rwa [Index.addDecl]
  | .usingDecl => by rwa [Index.addDecl]

theorem Below.addContent (hfile : file < bound) (scope : String) {index : Index}
    (h : index.Below bound) : ∀ content : Content, (index.addContent file scope content).Below bound
  | .plain decl => by
    rw [Index.addContent]
    exact Below.addDecl hfile scope h decl
  | .exported decl => by
    rw [Index.addContent]
    exact Below.addDecl hfile scope h decl
  | .empty => by rwa [Index.addContent]
  | .other => by rwa [Index.addContent]

theorem Below.addItem (hfile : file < bound) (scope : String) {index : Index}
    (h : index.Below bound) : ∀ item : Item, (index.addItem file scope item).Below bound
  | .mk _ content => by
    rw [Index.addItem]
    exact Below.addContent hfile scope h content

theorem Below.addItems (hfile : file < bound) (scope : String) {index : Index}
    (h : index.Below bound) : ∀ items : List Item, (index.addItems file scope items).Below bound
  | [] => by rwa [Index.addItems]
  | item :: items => by
    rw [Index.addItems]
    exact Below.addItems hfile scope (Below.addItem hfile scope h item) items
end

theorem Below.addFiles {files : List SourceFile} (hfiles : ∀ file ∈ files, file.id < bound)
    {index : Index} (h : index.Below bound) :
    (files.foldl (fun index file => index.addItems file.id "" file.items) index).Below bound := by
  induction files generalizing index with
  | nil => exact h
  | cons file files ih =>
    exact ih (fun later hlater => hfiles later (List.mem_cons_of_mem _ hlater))
      (Below.addItems (hfiles file List.mem_cons_self) "" h file.items)

end Index

def Corpus.index (corpus : Corpus) : Index :=
  corpus.files.foldl (fun index file => index.addItems file.id "" file.items) {}

structure FiledIndex extends Index where
  corpus : Corpus
  filed : toIndex.Below corpus.size

def Corpus.filedIndex (corpus : Corpus) : FiledIndex where
  toIndex := corpus.index
  corpus := corpus
  filed := Index.Below.addFiles (fun _ hfile => corpus.id_lt_size hfile) (by simp [Index.Below])

@[simp] theorem Corpus.filedIndex_toIndex (corpus : Corpus) :
    corpus.filedIndex.toIndex = corpus.index := rfl

namespace FiledIndex

instance : CoeOut FiledIndex Index := ⟨FiledIndex.toIndex⟩

/-- The declarations of an interface. The file of each is looked up, and a declaration whose file is
not in the corpus is passed over. -/
def declared (index : FiledIndex) (name : String) : List InterfaceDecl :=
  (index.interfaceEntries name).filterMap
    (fun entry => (index.corpus.file? entry.1).map (fun _ => entry.2))

end FiledIndex

end AmbientCatalog
