/-!
# Dotted names

A global is known by a dotted name such as `Intl.Collator.prototype`. The part before the last
dot is the scope in which the last part was declared; the empty string is the outermost scope.
This module joins a name to a scope, cuts a name at its last dot, lists the scopes that enclose a
given one, and moves a name from one leading part to another.
-/

set_option autoImplicit false

namespace AmbientCatalog.Name

def IsIdentifier (name : String) : Prop := name ≠ "" ∧ '.' ∉ name.toList

instance (name : String) : Decidable (IsIdentifier name) :=
  inferInstanceAs (Decidable (name ≠ "" ∧ '.' ∉ name.toList))

def qualify (name scope : String) : String :=
  if scope = "" then name
  else if name = "" then scope
  else scope ++ "." ++ name

def beforeLastDot : List Char → Option (List Char)
  | [] => none
  | c :: cs =>
    match beforeLastDot cs with
    | some front => some (c :: front)
    | none => if c = '.' then some [] else none

theorem beforeLastDot_length {cs front : List Char} (h : beforeLastDot cs = some front) :
    front.length < cs.length := by
  induction cs generalizing front with
  | nil => simp [beforeLastDot] at h
  | cons c cs ih =>
    cases hcs : beforeLastDot cs with
    | some rest =>
      simp only [beforeLastDot, hcs, Option.some.injEq] at h
      subst h
      simpa using ih hcs
    | none =>
      simp only [beforeLastDot, hcs] at h
      split at h
      · simp only [Option.some.injEq] at h
        subst h
        simp
      · simp at h

def parent (name : String) : String :=
  match beforeLastDot name.toList with
  | some front => String.ofList front
  | none => ""

theorem parent_length {name : String} (h : name ≠ "") :
    (parent name).toList.length < name.toList.length := by
  unfold parent
  split
  · next front hfront => simpa using beforeLastDot_length hfront
  · have hne : name.toList ≠ [] := fun hnil => h (by simpa using hnil)
    simpa using List.length_pos_iff.mpr hne

def enclosing (scope : String) : List String :=
  if scope = "" then [""]
  else scope :: enclosing (parent scope)
termination_by scope.toList.length
decreasing_by
  rename_i h
  exact parent_length h

/-- Moves a name that is `source`, or continues it with a dot, to start with `target`. Only whole
segments match, so `Array` is no leading part of `ArrayBuffer`. -/
def rebase (source target name : String) : String :=
  if source = target then name
  else
    match source.toList.isPrefixOf? name.toList with
    | some [] => target
    | some ('.' :: rest) => target ++ String.ofList ('.' :: rest)
    | _ => name

end AmbientCatalog.Name
