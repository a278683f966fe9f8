import AmbientCatalog.Proofs.FileOrder
import AmbientCatalog.Proofs.Leaves
import AmbientCatalog.Proofs.StaticSide

/-!
# Two ways to a role

The statement of an interface asks for it on behalf of the variable that the interface is about, and
the variable asks for it where it is declared. The first way goes by the type name that is recorded
for the variable and by the table of the variables declared last with a type; the second goes by the
annotation at hand and looks it up from where it stands. Where all declarations of a name record the
same type and no interface has a reserved name, both ways give the pair the same role, in whatever
namespaces the two stand and however the names of types are shadowed there.
-/

set_option autoImplicit false

namespace AmbientCatalog

def Role.Fits (role : Role) (interface binding : String) : Prop :=
  if interface = binding then role = .ownType ∨ role = .instanceSide else role = .constructorSide

theorem Site.interface_name {site : Site} {interface : String} {decl : InterfaceDecl}
    (h : (interface, decl) ∈ site.interfaces) :
    interface = Name.qualify decl.name site.scope := by
  unfold Site.interfaces at h
  split at h
  · obtain ⟨rfl, rfl⟩ := Prod.mk.inj (List.mem_singleton.mp h)
    rfl
  · exact absurd h List.not_mem_nil

namespace Setting.Regular

variable {s : Setting} {sites : List Site} {interface binding : String} {role : Role} {site : Site}
  {type : TypeExpr}

theorem roleOf_concerns (h : s.Regular sites) (hi : s.index.hasInterface interface = true)
    (hconcerns : s.index.Concerns interface binding) :
    ∃ role, s.roleOf interface binding (s.index.typeOf binding) = some role ∧
      role.Fits interface binding := by
  rcases hconcerns with ⟨rfl, -⟩ | ⟨hnone, hname⟩
  · obtain ⟨role, hrole, hfits⟩ := s.roleOf_self binding (s.index.typeOf binding)
    exact ⟨role, hrole, (if_pos rfl).mpr hfits⟩
  · obtain ⟨site, hsite, type, htyped, -, hasks⟩ := h.asks_of_nameOfType hi hnone hname
    have hknown := h.index.typeOf_eq h.agree (Site.annotation_of_typedVariable hsite htyped)
    have hne : interface ≠ binding := by
      rintro rfl
      exact absurd (hnone.symm.trans hknown) (by simp)
    have hrole : s.roleOf interface binding type.simpleName? = some .constructorSide := by
      cases hasks with
      | own _ _ => exact absurd rfl hne
      | typed ht _ _ hr => exact ht ▸ hr
    rw [hknown, h.roleOf_recordedName hi, hrole]
    exact ⟨_, rfl, (if_neg hne).mpr rfl⟩

theorem asks_of_roleOf (h : s.Regular sites) (hi : s.index.hasInterface interface = true)
    (hsite : site ∈ sites) (htyped : (binding, type) ∈ site.typedVariables)
    (hrole : s.roleOf interface binding type.simpleName? = some role)
    (hfits : role.Fits interface binding) :
    s.Asks binding site.scope type interface role := by
  by_cases hown : interface = binding
  · subst hown
    exact .own hi hrole
  · obtain rfl := (if_neg hown).mp hfits
    obtain ⟨name, hname, hl⟩ := lookup_of_roleOf hi hrole rfl
    rw [h.names.parent_typedVariable hsite htyped] at hl
    exact .typed hname hl hown (hname ▸ hrole)

/-- The variable asks for the interface in this role before it asks in any other. -/
theorem firstRole_describedSteps (h : s.Regular sites) (hsite : site ∈ sites)
    (htyped : (binding, type) ∈ site.typedVariables) (hkeyword : type.isKeyword = false)
    (hasks : s.Asks binding site.scope type interface role)
    (hrole : s.roleOf interface binding (s.index.typeOf binding) = some role) :
    firstRole interface binding (s.describedSteps binding site.scope (some type)) = some role := by
  have hknown := h.index.typeOf_eq h.agree (Site.annotation_of_typedVariable hsite htyped)
  have hsettled := describedSteps_settle (h.names.parent_typedVariable hsite htyped) hknown
    (fun hi hnone => by rw [hknown, h.roleOf_recordedName hi, hnone, s.roleOf_self_none]) interface
  refine (hsettled.firstRole_eq role).mpr ⟨?_, role, ?_⟩
  · rw [settledRole, hrole, Option.getD_some]
  · exact s.mem_describedSteps.mpr ⟨rfl, hkeyword, hasks⟩

theorem isDescribed_of_asks (h : s.Regular sites) (hsite : site ∈ sites)
    (htyped : (binding, type) ∈ site.typedVariables) (hkeyword : type.isKeyword = false)
    (hasks : s.Asks binding site.scope type interface role) (hfits : role.Fits interface binding) :
    s.isDescribed binding site.scope (some type) = true := by
  have hparent := h.names.parent_typedVariable hsite htyped
  rw [s.isDescribed_eq hparent, Bool.not_eq_true']
  cases hasks with
  | own hi _ => cases type <;> simp_all [Index.leaves, TypeExpr.isKeyword]
  | typed ht hl _ _ => cases type <;> simp_all [Index.leaves, TypeExpr.isKeyword]
  | built _ _ _ _ _ hne => exact absurd ((if_neg hne).mp hfits) (by simp)

end Setting.Regular

theorem Setting.ofInterface_of_roleOf (s : Setting) {scope : String} {decl : InterfaceDecl}
    {about : Binding} {role : Role}
    (habout : s.index.bindingOf (Name.qualify decl.name scope) = some about)
    (hrole : s.roleOf (Name.qualify decl.name scope) about.name about.typeName = some role) :
    s.ofInterface scope decl =
      s.describeInterface (Name.qualify decl.name scope) role about.name := by
  simp [ofInterface, habout, hrole]

/-- Where types agree and no interface has a reserved name, the statement of an interface about a
variable always describes the interface, and in the role in which an annotation of that variable
asks for it first. -/
theorem Corpus.roles_agree (corpus : Corpus) (options : Options)
    (hagree : TypesAgree (fileSites .stepwise corpus.files))
    (hfree : Unreserved (fileSites .stepwise corpus.files)) :
    (∀ site ∈ fileSites .stepwise corpus.files, ∀ interface decl,
      (interface, decl) ∈ site.interfaces →
      ∀ about, corpus.index.bindingOf interface = some about →
      ∃ role : Role, role.Fits interface about.name ∧
        (corpus.setting options).ofInterface site.scope decl =
          (corpus.setting options).describeInterface interface role about.name ∧
        ∀ place ∈ fileSites .stepwise corpus.files, ∀ type,
          (about.name, type) ∈ place.typedVariables → type.isKeyword = false →
          (corpus.setting options).roleOf interface about.name type.simpleName? = some role ∧
          (corpus.setting options).describedVariable about.name place.scope (some type) =
            (fun nodes => (nodes, true)) <$> (corpus.setting options).performAll
              ((corpus.setting options).describedSteps about.name place.scope (some type)) ∧
          firstRole interface about.name
            ((corpus.setting options).describedSteps about.name place.scope (some type)) =
              some role) ∧
    ∀ site ∈ fileSites .stepwise corpus.files, ∀ binding type,
      (binding, type) ∈ site.typedVariables → ∀ typeName,
      corpus.index.lookup typeName site.scope =
        corpus.index.lookup typeName (Name.parent binding) := by
  have h : (corpus.setting options).Regular (fileSites .stepwise corpus.files) :=
    ⟨corpus.index_isOf, wellNamed_fileSites corpus.files, hagree, hfree⟩
  refine ⟨fun site hsite interface decl hdecl about habout => ?_,
    fun site hsite binding type htyped typeName => ?_⟩
  · have hi : corpus.index.hasInterface interface = true :=
      h.index.hasInterface_iff.mpr ⟨decl, List.mem_flatMap.mpr ⟨site, hsite, hdecl⟩⟩
    obtain ⟨hconcerns, hrecorded⟩ := Index.bindingOf_eq_some.mp habout
    obtain ⟨role, hrole, hfits⟩ := h.roleOf_concerns hi hconcerns
    refine ⟨role, hfits, ?_, fun place hplace type htyped hkeyword => ?_⟩
    · obtain rfl := site.interface_name hdecl
      exact (corpus.setting options).ofInterface_of_roleOf habout (hrecorded ▸ hrole)
    · have hknown := h.index.typeOf_eq hagree (Site.annotation_of_typedVariable hplace htyped)
      have hsame : (corpus.setting options).roleOf interface about.name type.simpleName? =
          some role := by
        rw [← h.roleOf_recordedName hi, ← hknown, hrole]
      have hasks := h.asks_of_roleOf hi hplace htyped hsame hfits
      refine ⟨hsame, ?_, h.firstRole_describedSteps hplace htyped hkeyword hasks hrole⟩
      rw [Setting.describedVariable_eq, h.isDescribed_of_asks hplace htyped hkeyword hasks hfits]
  · rw [h.names.parent_typedVariable hsite htyped]

def shadowingFile : SourceFile :=
  { id := 0
    specifier := "file:///intl.d.ts"
    mediaType := .dts
    items := [
      .mk ⟨1, 1⟩ (.plain (.interfaceDecl ⟨"CollatorConstructor", [], []⟩)),
      .mk ⟨2, 1⟩ (.plain (.namespaceDecl true ["Intl"] [
        .mk ⟨3, 1⟩ (.plain (.interfaceDecl ⟨"CollatorConstructor", [],
          [.construct (.mk [] [] none)]⟩)),
        .mk ⟨4, 1⟩ (.plain (.variableDecl ⟨true, false,
          [.ident "Collator" (some (.reference (.ident "CollatorConstructor") []))]⟩))]))]
    named := by decide }

theorem Corpus.roles_agree_shadowing :
    TypesAgree (fileSites .stepwise (Corpus.ofFiles [shadowingFile]).files) ∧
      Unreserved (fileSites .stepwise (Corpus.ofFiles [shadowingFile]).files) ∧
      ∃ role : Role, role.Fits "Intl.CollatorConstructor" "Intl.Collator" ∧
        firstRole "Intl.CollatorConstructor" "Intl.Collator"
          (((Corpus.ofFiles [shadowingFile]).setting {}).describedSteps "Intl.Collator" "Intl"
            (some (.reference (.ident "CollatorConstructor") []))) = some role := by
  have hagree : TypesAgree (fileSites .stepwise (Corpus.ofFiles [shadowingFile]).files) := by
    decide
  have hfree : Unreserved (fileSites .stepwise (Corpus.ofFiles [shadowingFile]).files) := by
    decide
  obtain ⟨hroles, -⟩ := Corpus.roles_agree (Corpus.ofFiles [shadowingFile]) {} hagree hfree
  have hbinding : (Corpus.ofFiles [shadowingFile]).index.bindingOf "Intl.CollatorConstructor" =
      some ⟨"Intl.Collator", some "CollatorConstructor"⟩ := by decide +kernel
  obtain ⟨role, hfits, -, hplaces⟩ := hroles _
    (List.mem_cons_of_mem _ (List.mem_cons_of_mem _ List.mem_cons_self))
    "Intl.CollatorConstructor" _ (List.mem_singleton_self _) _ hbinding
  obtain ⟨-, -, hfirst⟩ := hplaces _
    (List.mem_cons_of_mem _ (List.mem_cons_of_mem _ (List.mem_cons_of_mem _ List.mem_cons_self)))
    _ (List.mem_singleton_self _) rfl
  exact ⟨hagree, hfree, role, hfits, hfirst⟩

end AmbientCatalog
