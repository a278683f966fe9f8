import AmbientCatalog.Proofs.Plan

/-!
# Dotted names

A dotted name is written in four places: as a type, where it nests to the left; as the base of an
interface, where it is an expression with parentheses anywhere; as the name of a namespace, where
each part stands in the body of the one before; and as a scope, which grows by one part at a time.
All four are read as the parts with dots between them, so what is declared in one place is found
from the others. An expression has no such name exactly if something else stands on the way to its
first name.
-/

set_option autoImplicit false

namespace AmbientCatalog

namespace EntityName

def ofParts (first : String) (rest : List String) : EntityName :=
  rest.foldl .qualified (.ident first)

theorem parts_foldl (left : EntityName) (rest : List String) :
    (rest.foldl .qualified left).parts = left.parts ++ rest := by
  induction rest generalizing left with
  | nil => simp
  | cons part rest ih => simp [ih, parts]

theorem parts_ofParts (first : String) (rest : List String) :
    (ofParts first rest).parts = first :: rest :=
  parts_foldl (.ident first) rest

theorem text_ofParts (first : String) (rest : List String) :
    (ofParts first rest).text = ".".intercalate (first :: rest) := by
  rw [text, parts_ofParts]

end EntityName

namespace Expr

inductive Names : Expr → List String → Prop where
  | ident (name : String) : Names (.ident name) [name]
  | member {target : Expr} {parts : List String} (h : Names target parts) (name : String) :
      Names (.member target name) (parts ++ [name])
  | group {inner : Expr} {parts : List String} (h : Names inner parts) : Names (.group inner) parts

theorem Names.ne_nil {e : Expr} {parts : List String} (h : e.Names parts) : parts ≠ [] := by
  induction h with
  | ident name => simp
  | member _ name => simp
  | group _ ih => exact ih

theorem Names.entityText {e : Expr} {parts : List String} (h : e.Names parts) :
    e.entityText = some (".".intercalate parts) := by
  induction h with
  | ident name => simp [Expr.entityText]
  | member h name ih =>
    rw [Expr.entityText, ih, Option.map_some,
      String.intercalate_append_of_ne_nil h.ne_nil (List.cons_ne_nil name []),
      String.intercalate_singleton]
  | group h ih => rw [Expr.entityText, ih]

def spine : Expr → List Expr
  | .member target name => .member target name :: target.spine
  | .group inner => .group inner :: inner.spine
  | .ident name => [.ident name]
  | .instantiated target => [.instantiated target]
  | .other => [.other]

def isPlain : Expr → Bool
  | .ident _ => true
  | .member _ _ => true
  | .group _ => true
  | .instantiated _ => false
  | .other => false

theorem entityText_eq_none_iff (e : Expr) :
    e.entityText = none ↔ ∃ step ∈ e.spine, step.isPlain = false := by
  induction e with
  | ident name => simp [entityText, spine, isPlain]
  | member target name ih => simp [entityText, spine, isPlain, ih]
  | group inner ih => simp [entityText, spine, isPlain, ih]
  | instantiated target ih => simp [entityText, spine, isPlain]
  | other => simp [entityText, spine, isPlain]

end Expr

namespace NamespaceBody

def ofParts (rest : List String) (items : List Item) : NamespaceBody :=
  rest.foldr .nested (.block items)

theorem flatten_ofParts (parts rest : List String) (items : List Item) :
    (ofParts rest items).flatten parts = (parts ++ rest, items) := by
  induction rest generalizing parts with
  | nil => simp [ofParts, flatten]
  | cons part rest ih =>
    have hbody : ofParts (part :: rest) items = .nested part (ofParts rest items) := rfl
    rw [hbody, flatten, ih, List.append_assoc, List.singleton_append]

end NamespaceBody

/-- The parts of a name joined with dots are its text as a type, as an expression in any parentheses
and as a nest of namespaces, whether it is qualified at once or part by part. An expression has no
text exactly if its spine holds something else. -/
theorem Name.dotted_alike (first : String) (rest : List String)
    (h : ∀ part ∈ first :: rest, part ≠ "") :
    (EntityName.ofParts first rest).text = ".".intercalate (first :: rest) ∧
    (∀ e : Expr, e.Names (first :: rest) →
      e.entityText = some (".".intercalate (first :: rest)) ∧
      ∀ (index : Index) (scope : String) (args : List TypeExpr),
        Heritage.baseName? index scope e =
          (TypeExpr.reference (EntityName.ofParts first rest) args).simpleName?.bind
            (fun name => index.lookup name scope)) ∧
    (∀ items : List Item,
      ".".intercalate ((NamespaceBody.ofParts rest items).flatten [first]).1 =
        ".".intercalate (first :: rest) ∧
      ((NamespaceBody.ofParts rest items).flatten [first]).2 = items) ∧
    (first :: rest).foldl (fun scope part => Name.qualify part scope) "" =
      ".".intercalate (first :: rest) ∧
    (∀ (isDeclared : Bool) (scope : String),
      Nesting.joined scope (first :: rest) =
        Name.qualify (".".intercalate (first :: rest)) scope ∧
      (Setting.namespaceNodes isDeclared scope (first :: rest)).2 =
        Name.qualify (".".intercalate (first :: rest)) scope) ∧
    (∀ a b c, Name.qualify (Name.qualify a b) c = Name.qualify a (Name.qualify b c)) ∧
    (∀ a, Name.qualify a "" = a ∧ Name.qualify "" a = a) ∧
    ∀ e : Expr, e.entityText = none ↔ ∃ step ∈ e.spine, step.isPlain = false := by
  have hstepwise : ∀ scope, Nesting.stepwise scope (first :: rest) =
      Name.qualify (".".intercalate (first :: rest)) scope :=
    fun scope => (Nesting.joined_eq_stepwise h scope).symm
  refine ⟨EntityName.text_ofParts first rest, fun e he => ⟨he.entityText, ?_⟩, fun items => ?_,
    hstepwise "", fun isDeclared scope => ⟨rfl, ?_⟩, Name.qualify_assoc,
    fun a => ⟨Name.qualify_outermost a, Name.qualify_empty a⟩, Expr.entityText_eq_none_iff⟩
  · intro index scope args
    rw [Heritage.baseName?, he.entityText, TypeExpr.simpleName?, EntityName.text_ofParts]
  · rw [NamespaceBody.flatten_ofParts]
    exact ⟨rfl, rfl⟩
  · rw [Setting.namespaceNodes_scope, hstepwise]

theorem Name.dotted_alike_collator :
    (EntityName.ofParts "Intl" ["Collator"]).text = "Intl.Collator" ∧
      (Expr.group (.member (.group (.ident "Intl")) "Collator")).entityText =
        some "Intl.Collator" ∧
      ["Intl", "Collator"].foldl (fun scope part => Name.qualify part scope) "" =
        "Intl.Collator" := by
  obtain ⟨htype, hexpr, -, hscope, -⟩ := Name.dotted_alike "Intl" ["Collator"] (by decide)
  exact ⟨htype, (hexpr _ (.group (.member (.group (.ident "Intl")) "Collator"))).1, hscope⟩

end AmbientCatalog
