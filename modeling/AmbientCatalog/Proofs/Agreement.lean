import AmbientCatalog.Proofs.Plan

/-!
# Indexes that agree

A survey asks an index for declared types, for interfaces and for what can construct. Two indexes
with the same answers, the order and number of the declarations of an interface apart, lead to the
same roles and to the same choice between describing a variable and leaving it as it is.
-/

set_option autoImplicit false

namespace AmbientCatalog

/-- The two indexes have the same answers. Which variable was declared last with a type is left
open, and so are the order and number of the declarations of an interface. -/
structure Index.Agrees (index index' : Index) : Prop where
  typeOf : index.typeOf = index'.typeOf
  constructs : index.isConstructorType = index'.isConstructorType
  declares : ∀ name decl, decl ∈ index.interfaces name ↔ decl ∈ index'.interfaces name

namespace Index.Agrees

variable {index index' : Index}

theorem symm (h : index.Agrees index') : index'.Agrees index where
  typeOf := h.typeOf.symm
  constructs := h.constructs.symm
  declares := fun name decl => (h.declares name decl).symm

theorem hasInterface (h : index.Agrees index') : index.hasInterface = index'.hasInterface := by
  funext name
  rw [Bool.eq_iff_iff]
  simp only [Index.hasInterface, Bool.not_eq_true', List.isEmpty_eq_false_iff_exists_mem,
    h.declares]

theorem lookup (h : index.Agrees index') : index.lookup = index'.lookup := by
  funext name scope
  rw [Index.lookup, Index.lookup, h.hasInterface]

theorem isKnown (h : index.Agrees index') : index.isKnown = index'.isKnown := by
  funext name
  rw [Index.isKnown, Index.isKnown, h.typeOf]

end Index.Agrees

namespace Setting

variable {index index' : FiledIndex} (options : Options)

theorem roleOf_agrees (h : index.Agrees index') :
    (Setting.mk index options).roleOf = (Setting.mk index' options).roleOf := by
  funext interface binding type
  simp only [roleOf, h.lookup]

theorem ownSteps_agrees (h : index.Agrees index') :
    (Setting.mk index options).ownSteps = (Setting.mk index' options).ownSteps := by
  funext binding type
  simp only [ownSteps, h.hasInterface, roleOf_agrees options h]

theorem typeSteps_agrees (h : index.Agrees index') :
    (Setting.mk index options).typeSteps = (Setting.mk index' options).typeSteps := by
  funext binding interface type
  simp only [typeSteps, roleOf_agrees options h]

theorem isDescribed_agrees (h : index.Agrees index') :
    (Setting.mk index options).isDescribed = (Setting.mk index' options).isDescribed := by
  funext binding scope type?
  unfold isDescribed
  simp only [ownSteps_agrees options h, typeSteps_agrees options h, h.lookup]

theorem ofFunction_agrees (h : index.Agrees index') :
    (Setting.mk index options).ofFunction = (Setting.mk index' options).ofFunction := by
  funext scope decl
  rw [ofFunction, ofFunction, h.isKnown]

end Setting

end AmbientCatalog
