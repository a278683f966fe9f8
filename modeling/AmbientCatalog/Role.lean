import AmbientCatalog.Name

/-!
# What an interface says about a variable

An interface can be the type of a variable, carry its name, or both. The three cases put its
members in different places: on the variable itself when the interface is its type, and on the
prototype when it only shares the name.
-/

set_option autoImplicit false

namespace AmbientCatalog

/-- An interface is both the name and the type of a variable, its name alone, or its type alone. -/
inductive Role where
  | ownType
  | instanceSide
  | constructorSide
  deriving DecidableEq, Repr

namespace Role

def classify (interface binding : String) (type : Option String) : Option Role :=
  if binding = interface then
    if type = some interface then some ownType else some instanceSide
  else if type = some interface then some constructorSide
  else none

def prototypeName : String := "prototype"

def scope (role : Role) (binding : String) : String :=
  match role with
  | instanceSide => Name.qualify prototypeName binding
  | ownType => binding
  | constructorSide => binding

def isStatic : Role → Bool
  | instanceSide => false
  | ownType => true
  | constructorSide => true

end Role

end AmbientCatalog
