import AmbientCatalog.Proofs.Independence
import AmbientCatalog.Proofs.StaticSide

/-!
# What `Object` adds

Every described interface can also take the members of `Object`. Whether it does makes no difference
to the plan of a survey, so with and without these members the same interfaces are described for the
same variables in the same roles. Each of them has the nodes that it has without `Object`, and the
further ones are members of interfaces that `Object` reaches and the interface itself does not.
-/

set_option autoImplicit false

namespace AmbientCatalog

namespace Setting

def withObject (s : Setting) (isAdded : Bool) : Setting :=
  ⟨s.index, { s.options with objectHeritage := isAdded }⟩

/-- A member of `Object`, or of an interface that it inherits, that an interface takes over and does
not have without `Object`. -/
def Takes (s : Setting) (interface : String) (role : Role) (binding : String) (node : Node) :
    Prop :=
  interface ≠ objectName ∧ interface ≠ objectConstructorName ∧
    ∃ name, s.index.Reaches objectName name ∧ ¬s.index.Reaches interface name ∧
      ∃ member ∈ s.index.elements name, node = member.node (role.scope binding) role.isStatic

variable (s : Setting)

theorem bears_withoutObject {interface binding : String} {role : Role} {node : Node} :
    (s.withObject false).Bears interface role binding node ↔
      ∃ name, s.index.Reaches interface name ∧ ∃ member ∈ s.index.elements name,
        node = member.node (role.scope binding) role.isStatic := by
  simp [Bears, Brings, withObject]

theorem bears_withObject {interface binding : String} {role : Role} {node : Node}
    (h : (s.withObject true).Bears interface role binding node) :
    (s.withObject false).Bears interface role binding node ∨
      s.Takes interface role binding node := by
  obtain ⟨name, hbrings, member, hmem, hnode⟩ := h
  by_cases hreach : s.index.Reaches interface name
  · exact .inl (s.bears_withoutObject.mpr ⟨name, hreach, member, hmem, hnode⟩)
  · obtain ⟨-, hobject, hconstructor, -, hadded⟩ := hbrings.resolve_left hreach
    exact .inr ⟨hobject, hconstructor, name, hadded, hreach, member, hmem, hnode⟩

/-- Nothing that is emitted without `Object` is lost. -/
theorem emits_withoutObject {done : List (String × String)} {steps : List Step} {node : Node}
    (h : (s.withObject false).Emits done steps node) :
    (s.withObject true).Emits done steps node := by
  rcases h with hfixed | ⟨interface, binding, role, hnew, hfirst, hbears⟩
  · exact .inl hfixed
  · obtain ⟨name, hreach, hmember⟩ := s.bears_withoutObject.mp hbears
    exact .inr ⟨interface, binding, role, hnew, hfirst, name, .inl hreach, hmember⟩

/-- What is emitted with `Object` only is taken over from it. -/
theorem emits_withObject {steps : List Step} {node : Node}
    (h : (s.withObject true).Emits [] steps node) :
    (s.withObject false).Emits [] steps node ∨ ∃ interface role binding,
      firstRole interface binding steps = some role ∧ s.Takes interface role binding node := by
  rcases h with hfixed | ⟨interface, binding, role, hnew, hfirst, hbears⟩
  · exact .inl (.inl hfixed)
  · rcases s.bears_withObject hbears with hold | htakes
    · exact .inl (.inr ⟨interface, binding, role, hnew, hfirst, hold⟩)
    · exact .inr ⟨interface, role, binding, hfirst, htakes⟩

theorem performAll_withObject (h : s.index.hasInterface objectName = false) (steps : List Step) :
    (s.withObject true).performAll steps = (s.withObject false).performAll steps := by
  have htakes : ∀ isAdded interface, (s.withObject isAdded).takesObject interface = false :=
    fun _ interface => takesObject_eq_false (.inr h) interface
  refine performAll_congr (fun step => ?_) steps
  cases step with
  | node emitted => rfl
  | inline binding members => rfl
  | request interface role binding =>
    simp only [perform, describeInterface, interfaceNodes, htakes]
    rfl

end Setting

namespace Catalog

/-- With the members of `Object` nothing is lost, and what is added belongs to an interface that
`Object` reaches and is named for a first request of an interface that does not inherit it. The
diagnostics are the same. -/
theorem build_objectHeritage (corpus : Corpus) (options : Options) :
    plan corpus { options with objectHeritage := true } =
      plan corpus { options with objectHeritage := false } ∧
    ∃ plain rich, build corpus { options with objectHeritage := false } = .ok plain ∧
      build corpus { options with objectHeritage := true } = .ok rich ∧
      (∀ name record, record ∈ plain.recordsOf name → record ∈ rich.recordsOf name) ∧
      (∀ name record, record ∈ rich.recordsOf name → record ∉ plain.recordsOf name →
        ∃ interface role binding,
          firstRole interface binding (plan corpus { options with objectHeritage := true }) =
            some role ∧
          interface ≠ objectName ∧ interface ≠ objectConstructorName ∧
          ∃ source, corpus.index.Reaches objectName source ∧
            ¬corpus.index.Reaches interface source ∧
            ∃ member ∈ corpus.index.elements source, ∃ node,
              member.resolve (role.scope binding) role.isStatic = .ok node ∧
              node.id = name ∧ node.record = record) ∧
      plain.diagnostics = rich.diagnostics ∧
      (corpus.index.hasInterface objectName = false → plain = rich) := by
  let s : Setting := (corpus.setting options)
  have hindex : s.index.IsOf (fileSites .stepwise corpus.files) := corpus.index_isOf
  obtain ⟨plain, hplain, hplainOf⟩ := build_isOf corpus { options with objectHeritage := false }
  obtain ⟨rich, hrich, hrichOf⟩ := build_isOf corpus { options with objectHeritage := true }
  refine ⟨rfl, plain, rich, hplain, hrich, fun name record hmem => ?_,
    fun name record hmem hnot => ?_, ?_, fun hnone => ?_⟩
  · obtain ⟨node, hemits, hkept⟩ := (hplainOf.records name record).mp hmem
    exact (hrichOf.records name record).mpr ⟨node, s.emits_withoutObject hemits, hkept⟩
  · obtain ⟨node, hemits, hkept⟩ := (hrichOf.records name record).mp hmem
    rcases s.emits_withObject hemits with hold | ⟨interface, role, binding, hfirst, htakes⟩
    · exact absurd ((hplainOf.records name record).mpr ⟨node, hold, hkept⟩) hnot
    · obtain ⟨hobject, hconstructor, source, hreach, hnew, member, hmember, rfl⟩ := htakes
      obtain ⟨step, hstep, hrole⟩ := List.exists_of_findSome?_eq_some hfirst
      obtain rfl := Step.roleFor_eq_some.mp hrole
      have hbinding : binding ≠ "" :=
        Setting.stepsAt_named hindex (wellNamed_fileSites corpus.files) _ hstep
      exact ⟨interface, role, binding, hfirst, hobject, hconstructor, source, hreach, hnew, member,
        hmember, _, Member.resolve_ok (role.scope_ne_empty hbinding) role.isStatic member, hkept.2⟩
  · rw [hplainOf.diagnostics, hrichOf.diagnostics]
  · have hsame : build corpus { options with objectHeritage := true } =
        build corpus { options with objectHeritage := false } := by
      rw [build_eq, build_eq]
      exact congrArg (fun run : Survey (List Node) => (run []).map _)
        (s.performAll_withObject hnone (plan corpus options))
    exact Except.ok.inj (hplain.symm.trans (hsame.symm.trans hrich))

end Catalog

end AmbientCatalog
