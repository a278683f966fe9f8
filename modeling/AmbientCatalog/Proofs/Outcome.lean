import AmbientCatalog.Proofs.Indexing
import AmbientCatalog.Proofs.Plan
import AmbientCatalog.Proofs.Registering

/-!
# The outcome of a plan

Where all names are identifiers, a plan never fails. It emits the nodes that its steps hold
themselves, and for each pair of an interface and a variable that it asks for, the nodes of that
interface in the role in which the pair is asked for first. A catalog holds what its plan emits and
nothing else.
-/

set_option autoImplicit false

namespace AmbientCatalog

namespace Step

def fixed : Step → List Node
  | .node emitted => [emitted]
  | .inline binding members => members.map (Member.node binding true)
  | .request _ _ _ => []

def roleFor (interface binding : String) : Step → Option Role
  | .node _ => none
  | .inline _ _ => none
  | .request interface' role binding' =>
    if interface' = interface ∧ binding' = binding then some role else none

def isRequest : Step → Bool
  | .node _ => false
  | .inline _ _ => false
  | .request _ _ _ => true

def Named : Step → Prop
  | .node _ => True
  | .inline binding _ => binding ≠ ""
  | .request _ _ binding => binding ≠ ""

theorem roleFor_eq_some {interface binding : String} {role : Role} {step : Step} :
    step.roleFor interface binding = some role ↔ step = .request interface role binding := by
  cases step with
  | node _ => simp [roleFor]
  | inline binding members => simp [roleFor]
  | request interface' role' binding' =>
    simp only [roleFor, Option.ite_none_right_eq_some, Option.some.injEq, Step.request.injEq]
    tauto

end Step

def firstRole (interface binding : String) (steps : List Step) : Option Role :=
  steps.findSome? (Step.roleFor interface binding)

def Settles (interface binding : String) (role : Role) (steps : List Step) : Prop :=
  ∀ first, firstRole interface binding steps = some first → first = role

namespace Settles

variable {interface binding : String} {role : Role} {steps more : List Step}

theorem of_firstRole (h : firstRole interface binding steps = some role) :
    Settles interface binding role steps := by
  intro first hfirst
  exact Option.some.inj (hfirst.symm.trans h)

theorem of_forall (h : ∀ role', .request interface role' binding ∈ steps → role' = role) :
    Settles interface binding role steps := by
  intro first hfirst
  obtain ⟨step, hmem, hrole⟩ := List.exists_of_findSome?_eq_some hfirst
  exact h first (Step.roleFor_eq_some.mp hrole ▸ hmem)

theorem append (h : Settles interface binding role steps)
    (h' : Settles interface binding role more) :
    Settles interface binding role (steps ++ more) := by
  intro first hfirst
  rw [firstRole, List.findSome?_append] at hfirst
  rcases Option.or_eq_some_iff.mp hfirst with hf | ⟨-, hf⟩
  · exact h first hf
  · exact h' first hf

theorem append_of_firstRole (h : firstRole interface binding steps = some role) (more : List Step) :
    Settles interface binding role (steps ++ more) := by
  apply of_firstRole
  rw [firstRole, List.findSome?_append, ← firstRole, h]
  rfl

theorem flatMap {α : Type} {plan : α → List Step} {places : List α}
    (h : ∀ place ∈ places, Settles interface binding role (plan place)) :
    Settles interface binding role (places.flatMap plan) := by
  induction places with
  | nil => exact of_forall (by simp)
  | cons place places ih =>
    rw [List.flatMap_cons]
    exact (h place List.mem_cons_self).append
      (ih (fun p hp => h p (List.mem_cons_of_mem _ hp)))

theorem firstRole_eq (h : Settles interface binding role steps) (first : Role) :
    firstRole interface binding steps = some first ↔
      first = role ∧ ∃ role', .request interface role' binding ∈ steps := by
  constructor
  · intro hfirst
    obtain ⟨step, hmem, hrole⟩ := List.exists_of_findSome?_eq_some hfirst
    exact ⟨h first hfirst, first, Step.roleFor_eq_some.mp hrole ▸ hmem⟩
  · rintro ⟨rfl, role', hmem⟩
    have hsome : (firstRole interface binding steps).isSome = true :=
      List.findSome?_isSome_iff.mpr ⟨_, hmem, by simp [Step.roleFor]⟩
    obtain ⟨found, hfound⟩ := Option.isSome_iff_exists.mp hsome
    rw [hfound, h found hfound]

end Settles

namespace Setting

def Bears (s : Setting) (interface : String) (role : Role) (binding : String) (node : Node) :
    Prop :=
  ∃ name, s.Brings interface name ∧ ∃ member ∈ s.index.elements name,
    node = member.node (role.scope binding) role.isStatic

theorem mem_interfaceNodes (s : Setting) (hnamed : s.index.hasInterface "" = false)
    (interface : String) (role : Role) {binding : String} (hb : binding ≠ "") :
    ∃ nodes, s.interfaceNodes interface role binding = .ok nodes ∧
      ∀ node, node ∈ nodes ↔ s.Bears interface role binding node := by
  obtain ⟨nodes, names, hnodes, -, hmem, hperm⟩ := s.interfaceNodes_perm hnamed interface role hb
  refine ⟨nodes, hnodes, fun node => ?_⟩
  rw [hperm.mem_iff]
  simp only [List.mem_flatMap, hmem, Heritage.nodesOf, List.mem_map, Bears, eq_comm]

/-- A node that some steps emit when the pairs described so far are `done`. -/
def Emits (s : Setting) (done : List (String × String)) (steps : List Step) (node : Node) : Prop :=
  (∃ step ∈ steps, node ∈ step.fixed) ∨
    ∃ interface binding role, (interface, binding) ∉ done ∧
      firstRole interface binding steps = some role ∧ s.Bears interface role binding node

theorem emits_cons_fixed (s : Setting) {done : List (String × String)} {step : Step}
    {steps : List Step} (hstep : ∀ interface binding, step.roleFor interface binding = none)
    (node : Node) :
    s.Emits done (step :: steps) node ↔ node ∈ step.fixed ∨ s.Emits done steps node := by
  simp only [Emits, firstRole, List.findSome?_cons, hstep, List.mem_cons, exists_eq_or_imp,
    or_assoc]

theorem emits_cons_done (s : Setting) {done : List (String × String)} {interface binding : String}
    (hdone : (interface, binding) ∈ done) (role : Role) (steps : List Step) (node : Node) :
    s.Emits done (.request interface role binding :: steps) node ↔ s.Emits done steps node := by
  have hfirst : ∀ interface' binding', (interface', binding') ∉ done →
      firstRole interface' binding' (.request interface role binding :: steps) =
        firstRole interface' binding' steps := by
    intro interface' binding' hnew
    have hne : ¬(interface = interface' ∧ binding = binding') := by
      rintro ⟨rfl, rfl⟩
      exact hnew hdone
    simp [firstRole, Step.roleFor, hne]
  simp only [Emits, List.mem_cons, exists_eq_or_imp, Step.fixed, List.not_mem_nil, false_or]
  refine or_congr Iff.rfl (exists_congr fun interface' => exists_congr fun binding' =>
    exists_congr fun role' => and_congr_right fun hnew => ?_)
  rw [hfirst interface' binding' hnew]

theorem emits_cons_new (s : Setting) {done : List (String × String)} {interface binding : String}
    (hnew : (interface, binding) ∉ done) (role : Role) (steps : List Step) (node : Node) :
    s.Emits done (.request interface role binding :: steps) node ↔
      s.Bears interface role binding node ∨ s.Emits ((interface, binding) :: done) steps node := by
  have hfirst : ∀ interface' binding', firstRole interface' binding'
      (.request interface role binding :: steps) =
      if interface = interface' ∧ binding = binding' then some role
      else firstRole interface' binding' steps := by
    intro interface' binding'
    by_cases h : interface = interface' ∧ binding = binding'
    · simp [firstRole, Step.roleFor, h]
    · simp [firstRole, Step.roleFor, h]
  simp only [Emits, List.mem_cons, exists_eq_or_imp, Step.fixed, List.not_mem_nil, false_or, hfirst]
  constructor
  · rintro (hfixed | ⟨interface', binding', role', hnew', hrole, hbears⟩)
    · exact .inr (.inl hfixed)
    · by_cases h : interface = interface' ∧ binding = binding'
      · obtain ⟨rfl, rfl⟩ := h
        rw [if_pos ⟨rfl, rfl⟩] at hrole
        exact .inl (Option.some.inj hrole ▸ hbears)
      · rw [if_neg h] at hrole
        refine .inr (.inr ⟨interface', binding', role', ?_, hrole, hbears⟩)
        rintro (heq | hin)
        · exact h ⟨(Prod.mk.inj heq).1.symm, (Prod.mk.inj heq).2.symm⟩
        · exact hnew' hin
  · rintro (hbears | hfixed | ⟨interface', binding', role', hnew', hrole, hbears⟩)
    · exact .inr ⟨interface, binding, role, hnew, if_pos ⟨rfl, rfl⟩, hbears⟩
    · exact .inl hfixed
    · have hne : ¬(interface = interface' ∧ binding = binding') := by
        rintro ⟨rfl, rfl⟩
        exact hnew' (.inl rfl)
      exact .inr ⟨interface', binding', role', fun hin => hnew' (.inr hin),
        by rw [if_neg hne]; exact hrole, hbears⟩

theorem performAll_cons_ok (s : Setting) {step : Step} {steps : List Step}
    {done done' : List (String × String)} {nodes : List Node}
    (h : s.performAll (step :: steps) done = .ok (nodes, done')) :
    ∃ first middle others, s.perform step done = .ok (first, middle) ∧
      s.performAll steps middle = .ok (others, done') ∧ nodes = first ++ others := by
  rw [performAll_cons] at h
  obtain ⟨⟨first, middle⟩, hfirst, h⟩ := bind_eq_ok h
  obtain ⟨⟨others, last⟩, hothers, h⟩ := bind_eq_ok h
  cases h
  exact ⟨first, middle, others, hfirst, hothers, rfl⟩

theorem performAll_cons_of_ok (s : Setting) {step : Step} {steps : List Step}
    {done middle done' : List (String × String)} {first others : List Node}
    (hfirst : s.perform step done = .ok (first, middle))
    (hothers : s.performAll steps middle = .ok (others, done')) :
    s.performAll (step :: steps) done = .ok (first ++ others, done') := by
  rw [performAll_cons, hfirst, ok_bind]
  dsimp only
  rw [hothers, ok_bind]
  rfl

theorem perform_state (s : Setting) {step : Step} {done done' : List (String × String)}
    {nodes : List Node} (h : s.perform step done = .ok (nodes, done')) :
    done' = done ∨ ∃ interface role binding, step = .request interface role binding ∧
      done' = (interface, binding) :: done := by
  cases step with
  | node emitted =>
    cases h
    exact .inl rfl
  | inline binding members =>
    obtain ⟨described, -, h⟩ := bind_eq_ok h
    cases h
    exact .inl rfl
  | request interface role binding =>
    rw [perform, describeInterface_apply] at h
    split_ifs at h
    · cases h
      exact .inl rfl
    · cases hn : s.interfaceNodes interface role binding with
      | error e => simp [hn, Except.map] at h
      | ok found =>
        simp only [hn, Except.map, Except.ok.injEq, Prod.mk.injEq] at h
        exact .inr ⟨interface, role, binding, rfl, h.2.symm⟩

/-- One step succeeds, and the rest of the plan emits what is left. -/
theorem perform_emits (s : Setting) (hnamed : s.index.hasInterface "" = false) {step : Step}
    (hstep : step.Named) (done : List (String × String)) :
    ∃ nodes done', s.perform step done = .ok (nodes, done') ∧
      ∀ steps node, s.Emits done (step :: steps) node ↔
        node ∈ nodes ∨ s.Emits done' steps node := by
  cases step with
  | node emitted =>
    refine ⟨[emitted], done, rfl, fun steps node => ?_⟩
    exact s.emits_cons_fixed (fun _ _ => rfl) node
  | inline binding members =>
    refine ⟨members.map (Member.node binding true), done, ?_, fun steps node => ?_⟩
    · rw [perform, Member.mapM_resolve_ok hstep]
      rfl
    · exact s.emits_cons_fixed (fun _ _ => rfl) node
  | request interface role binding =>
    -- a pair that is done gives nothing again, and a new one is done from here on
    by_cases hdone : (interface, binding) ∈ done
    · refine ⟨[], done, ?_, fun steps node => ?_⟩
      · rw [perform, describeInterface_apply, if_pos hdone]
      · rw [s.emits_cons_done hdone]
        simp
    · obtain ⟨nodes, hnodes, hmem⟩ := s.mem_interfaceNodes hnamed interface role hstep
      refine ⟨nodes, (interface, binding) :: done, ?_, fun steps node => ?_⟩
      · rw [perform, describeInterface_apply, if_neg hdone, hnodes]
        rfl
      · rw [s.emits_cons_new hdone, hmem]

/-- A plan succeeds and yields what it emits. -/
theorem performAll_emits (s : Setting) (hnamed : s.index.hasInterface "" = false)
    {steps : List Step} (hsteps : ∀ step ∈ steps, step.Named) (done : List (String × String)) :
    ∃ nodes done', s.performAll steps done = .ok (nodes, done') ∧
      ∀ node, node ∈ nodes ↔ s.Emits done steps node := by
  induction steps generalizing done with
  | nil => exact ⟨[], done, rfl, fun node => by simp [Emits, firstRole]⟩
  | cons step steps ih =>
    obtain ⟨nodes, mid, hfirst, hemits⟩ :=
      s.perform_emits hnamed (hsteps step List.mem_cons_self) done
    obtain ⟨others, done', hrest, hmem⟩ :=
      ih (fun later hlater => hsteps later (List.mem_cons_of_mem _ hlater)) mid
    refine ⟨nodes ++ others, done', ?_, fun node => ?_⟩
    · exact s.performAll_cons_of_ok hfirst hrest
    · rw [List.mem_append, hmem, hemits]

end Setting

end AmbientCatalog
