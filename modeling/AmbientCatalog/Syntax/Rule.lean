import AmbientCatalog.Syntax.Cursor

/-!
# The recursive rules of the grammar

The grammar refers to itself through a handful of rules. Each rule has its own result type, and a
grammar gives a parser for every rule. The rules are written against such a grammar, and the
grammar of depth `n + 1` is the rules written against that of depth `n`.
-/

set_option autoImplicit false

namespace AmbientCatalog.Syntax

inductive Rule where
  -- A type; the flag says whether a conditional type may stand here.
  | type (conditional : Bool)
  -- A member of an intersection, with its prefixed operators.
  | operand (conditional : Bool)
  -- An expression without commas; the flag says whether `in` is an operator here.
  | assignment (allowIn : Bool)
  | unary
  | leftHand
  | binding
  -- A statement; the flag says whether imports and exports may stand here.
  | item (top : Bool)

def Rule.Result : Rule → Type
  | .type _ => TypeExpr
  | .operand _ => TypeExpr
  | .assignment _ => Expr
  | .unary => Expr
  | .leftHand => Expr
  | .binding => Param
  | .item _ => Item

abbrev Grammar := (r : Rule) → Parser r.Result

namespace Grammar

def type (g : Grammar) : Parser TypeExpr := g (.type true)

def typeIn (g : Grammar) (conditional : Bool) : Parser TypeExpr := g (.type conditional)

def operand (g : Grammar) (conditional : Bool) : Parser TypeExpr := g (.operand conditional)

def assignment (g : Grammar) : Parser Expr := g (.assignment true)

def assignmentIn (g : Grammar) (allowIn : Bool) : Parser Expr := g (.assignment allowIn)

def unary (g : Grammar) : Parser Expr := g .unary

def leftHand (g : Grammar) : Parser Expr := g .leftHand

def binding (g : Grammar) : Parser Param := g .binding

def item (g : Grammar) (top : Bool) : Parser Item := g (.item top)

end Grammar

end AmbientCatalog.Syntax
