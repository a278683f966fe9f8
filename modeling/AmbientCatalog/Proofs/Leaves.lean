import AmbientCatalog.Proofs.Expansion
import AmbientCatalog.Proofs.OwnNodes
import AmbientCatalog.Proofs.Passes

/-!
# Functions and leaves

Which functions and variables have nodes of their own can be told from the statements and the index,
without a survey. A function has one if it stands in a namespace or if its name has a recorded type,
wherever in the corpus that is. A variable has one if it is a leaf: neither an interface nor an
inline type describes it. The survey looks the type of a variable up from where the variable stands
and once more from the scope of its name, which is the same scope, so the two lookups agree.
-/

set_option autoImplicit false

namespace AmbientCatalog

namespace Site

def Annotates (site : Site) (name : String) : Prop :=
  ∃ typed ∈ site.typedFunctions ++ site.typedVariables, typed.1 = name

instance (site : Site) (name : String) : Decidable (site.Annotates name) :=
  inferInstanceAs (Decidable (∃ typed ∈ site.typedFunctions ++ site.typedVariables,
    typed.1 = name))

def functionsNamed (name : String) (site : Site) : List Node :=
  match site.decl? with
  | some (.functionDecl decl) =>
    if Name.qualify decl.name site.scope = name then [Setting.functionNode site.scope decl] else []
  | _ => []

end Site

/-- Whether a variable with this annotation is left as it is: it is annotated with nothing or with a
keyword, or else neither with an inline type nor where an interface has its name or is its type. -/
def Index.leaves (index : Index) (binding : String) : Option TypeExpr → Bool
  | none => true
  | some (.keyword _) => true
  | some (.literalType _) => false
  | some type => !index.hasInterface binding &&
      (type.simpleName?.bind (fun name => index.lookup name (Name.parent binding))).isNone

def Declarator.leaf? (index : Index) (scope : String) (decl : VariableDecl) (name : String) :
    Declarator → Option Node
  | .destructured => none
  | .ident written type =>
    if Name.qualify written scope = name ∧ index.leaves name type then
      some (Setting.variableNode decl name type)
    else none

def Site.leavesNamed (index : Index) (name : String) (site : Site) : List Node :=
  match site.decl? with
  | some (.variableDecl decl) =>
    decl.declarators.filterMap (Declarator.leaf? index site.scope decl name)
  | _ => []

theorem Index.IsOf.isKnown_iff {index : Index} {sites : List Site} (h : index.IsOf sites)
    {name : String} : index.isKnown name = true ↔ ∃ site ∈ sites, site.Annotates name := by
  constructor
  · intro hknown
    obtain ⟨typeName, ht⟩ := Option.isSome_iff_exists.mp hknown
    obtain ⟨site, hsite, hin⟩ := List.mem_flatMap.mp (h.annotation_of_typeOf ht)
    obtain ⟨typed, htyped, heq⟩ := List.mem_map.mp hin
    exact ⟨site, hsite, typed, htyped, (Prod.mk.inj heq).1⟩
  · rintro ⟨site, hsite, typed, htyped, rfl⟩
    exact h.isKnown_of_annotation
      (List.mem_flatMap.mpr ⟨site, hsite, List.mem_map.mpr ⟨typed, htyped, rfl⟩⟩)

theorem flatMap_fixed_held (steps : List Step) :
    (Setting.held steps).flatMap Step.fixed = steps.flatMap Step.fixed := by
  induction steps with
  | nil => rfl
  | cons step steps ih =>
    cases step with
    | request interface role binding => exact ih
    | _ => exact congrArg (_ ++ ·) ih

namespace Setting

variable (s : Setting)

theorem roleOf_self (binding : String) (type : Option String) :
    ∃ role, s.roleOf binding binding type = some role ∧
      (role = .ownType ∨ role = .instanceSide) := by
  rw [roleOf, Role.classify, if_pos rfl]
  split_ifs
  · exact ⟨.ownType, rfl, .inl rfl⟩
  · exact ⟨.instanceSide, rfl, .inr rfl⟩

theorem ownSteps_isEmpty (binding : String) (type : Option String) :
    (s.ownSteps binding type).isEmpty = !s.index.hasInterface binding := by
  obtain ⟨role, hrole, -⟩ := s.roleOf_self binding type
  unfold ownSteps
  split_ifs with hi <;> simp [hrole, requestIn, hi]

theorem typeSteps_isEmpty {binding name interface : String} (hne : interface ≠ binding)
    (hl : s.index.lookup name (Name.parent binding) = some interface) :
    (s.typeSteps binding interface (some name)).isEmpty = false := by
  simp [typeSteps, hne, roleOf, hl, Role.classify, Ne.symm hne, requestIn]

/-- A variable is described exactly if it is no leaf. -/
theorem isDescribed_eq {binding scope : String} (hparent : Name.parent binding = scope)
    (type? : Option TypeExpr) :
    s.isDescribed binding scope type? = !s.index.leaves binding type? := by
  subst hparent
  cases type? with
  | none => rfl
  | some type =>
    by_cases hkeyword : ∃ word, type = .keyword word
    · obtain ⟨word, rfl⟩ := hkeyword
      rfl
    by_cases hliteral : ∃ members, type = .literalType members
    · obtain ⟨members, rfl⟩ := hliteral
      simp [isDescribed, Index.leaves, inlineSteps]
    have hinline : inlineSteps binding type = [] := by
      cases type <;> first | rfl | exact absurd ⟨_, rfl⟩ hliteral
    rw [isDescribed.eq_3 _ _ _ _ (fun word h => hkeyword ⟨word, h⟩),
      Index.leaves.eq_4 _ _ _ (fun word h => hkeyword ⟨word, h⟩)
        (fun members h => hliteral ⟨members, h⟩), hinline, ownSteps_isEmpty]
    cases hi : s.index.hasInterface binding with
    | true => rfl
    | false =>
      cases type.simpleName? with
      | none => rfl
      | some name =>
        cases hl : s.index.lookup name (Name.parent binding) with
        | none => simp [hl]
        | some interface =>
          -- the variable has no interface of its own, so its type is another one
          have hne : interface ≠ binding := by
            rintro rfl
            exact absurd (Index.hasInterface_of_lookup hl) (by simp [hi])
          simp [hl, s.typeSteps_isEmpty hne hl]

/-- The functions of a name have nodes if they stand in a namespace or the name is known. -/
theorem ownNodes_functions {sites : List Site} (hnames : WellNamed sites) {site : Site}
    (hsite : site ∈ sites) (name : String) :
    (s.ownNodes .functionDeclaration site).filter (fun node => node.id = name) =
      if Name.parent name ≠ "" ∨ s.index.isKnown name = true then site.functionsNamed name
      else [] := by
  obtain ⟨specifier, scope, start, decl?⟩ := site
  have hident := hnames _ hsite
  cases decl? with
  | none => simp [ownNodes, stepsAt, Site.functionsNamed]
  | some declared =>
    cases declared with
    | functionDecl decl =>
      have hid : (functionNode scope decl).id = Name.qualify decl.name scope :=
        (Signature.described_id _ decl.signature).1
      have hkind : (functionNode scope decl).kind = .functionDeclaration :=
        (Signature.described_id _ decl.signature).2.2
      have hsteps : s.stepsAt ⟨specifier, scope, start, some (.functionDecl decl)⟩ =
          (s.ofFunction scope decl).map .node := rfl
      rw [ownNodes, hsteps, flatMap_fixed_node, ofFunction, Site.functionsNamed]
      dsimp only
      generalize functionNode scope decl = node at hid hkind ⊢
      by_cases hname : Name.qualify decl.name scope = name
      · have hparent := Name.parent_qualify (hident decl.name (List.mem_singleton_self _)) scope
        rw [hname] at hid hparent
        rw [hname, hparent]
        by_cases hscope : scope = "" <;> cases hknown : s.index.isKnown name <;>
          simp [hscope, hid, hkind]
      · split_ifs <;> simp [hname, hid]
    | _ =>
      rw [ownNodes_eq_nil s rfl (by simp [Site.ownKind?])]
      simp [Site.functionsNamed]

theorem fixed_variableSteps {scope : String} {decl : VariableDecl} {declarator : Declarator}
    (hident : ∀ written, declarator.name? = some written → Name.IsIdentifier written)
    {name : String} :
    (((s.variableSteps scope decl declarator).flatMap Step.fixed).filter
      (fun node => node.kind = .variableDeclaration)).filter (fun node => node.id = name) =
        (declarator.leaf? s.index scope decl name).toList := by
  cases declarator with
  | destructured => rfl
  | ident written type? =>
    have hinline : ((type?.toList.flatMap (inlineSteps (Name.qualify written scope))).flatMap
        Step.fixed).filter (fun node => node.kind = .variableDeclaration) = [] := by
      refine List.filter_eq_nil_iff.mpr fun node hnode hkind => ?_
      obtain ⟨step, hstep, hfixed⟩ := List.mem_flatMap.mp hnode
      obtain ⟨type, -, hin⟩ := List.mem_flatMap.mp hstep
      have hmember : node.IsMember := by
        refine fixed_isMember (fun emitted heq => ?_) node hfixed
        subst heq
        cases type <;> simp [inlineSteps] at hin
      exact absurd hmember.isOwn (by simp [of_decide_eq_true hkind, Kind.isOwn])
    rw [← flatMap_fixed_held, held_variableSteps, List.flatMap_append, List.filter_append, hinline,
      List.nil_append, s.isDescribed_eq (Name.parent_qualify (hident written rfl) scope),
      Declarator.leaf?]
    by_cases hname : Name.qualify written scope = name
    · subst hname
      cases s.index.leaves (Name.qualify written scope) type? <;> simp [Step.fixed, variableNode]
    · cases s.index.leaves (Name.qualify written scope) type? <;>
        simp [Step.fixed, variableNode, hname]

/-- The variables of a name have nodes if they are leaves. -/
theorem ownNodes_variables {sites : List Site} (hnames : WellNamed sites) {site : Site}
    (hsite : site ∈ sites) (name : String) :
    (s.ownNodes .variableDeclaration site).filter (fun node => node.id = name) =
      site.leavesNamed s.index name := by
  obtain ⟨specifier, scope, start, decl?⟩ := site
  have hident := hnames _ hsite
  cases decl? with
  | none => simp [ownNodes, stepsAt, Site.leavesNamed]
  | some declared =>
    cases declared with
    | variableDecl decl =>
      have hsteps : s.stepsAt ⟨specifier, scope, start, some (.variableDecl decl)⟩ =
          decl.declarators.flatMap (s.variableSteps scope decl) := rfl
      rw [ownNodes, hsteps, List.flatMap_assoc, List.filter_flatMap, List.filter_flatMap,
        Site.leavesNamed]
      dsimp only
      rw [List.filterMap_eq_flatMap_toList]
      refine List.flatMap_congr fun declarator hmem => s.fixed_variableSteps ?_
      intro written hwritten
      exact hident written (List.mem_filterMap.mpr ⟨declarator, hmem, hwritten⟩)
    | _ =>
      rw [ownNodes_eq_nil s rfl (by simp [Site.ownKind?])]
      rfl

end Setting

namespace Catalog

/-- The function nodes of a name are those of all its functions, each record once, if the name lies
in a namespace or is annotated anywhere, and its variable nodes are those of all its leaves. -/
theorem build_leaves (corpus : Corpus) (options : Options) :
    ∃ catalog, build corpus options = .ok catalog ∧
      ∀ name, ¬Node.placeholderId.toList <+: name.toList →
        (catalog.registry.overloads name).filter (fun node => node.kind = .functionDeclaration) =
          (if Name.parent name ≠ "" ∨
            ∃ site ∈ fileSites .stepwise corpus.files, site.Annotates name
          then ((fileSites .stepwise corpus.files).flatMap
            (Site.functionsNamed name)).eraseDupsBy Registry.sameRecord
          else []) ∧
        (catalog.registry.overloads name).filter (fun node => node.kind = .variableDeclaration) =
          ((fileSites .stepwise corpus.files).flatMap
            (Site.leavesNamed corpus.index name)).eraseDupsBy Registry.sameRecord := by
  let s : Setting := corpus.setting options
  have hindex : s.index.IsOf (fileSites .stepwise corpus.files) := corpus.index_isOf
  have hnames := wellNamed_fileSites corpus.files
  obtain ⟨catalog, hbuild, -⟩ := build_isOf corpus options
  refine ⟨catalog, hbuild, fun name hplain => ⟨?_, ?_⟩⟩
  · have hfunctions := List.flatMap_congr fun site hsite => s.ownNodes_functions hnames hsite name
    rw [overloads_ofKind hbuild rfl hplain, List.filter_flatMap, hfunctions,
      if_congr (or_congr_right hindex.isKnown_iff.symm) rfl rfl]
    by_cases hcounts : Name.parent name ≠ "" ∨ s.index.isKnown name = true
    · simp only [if_pos hcounts]
    · simp only [if_neg hcounts]
      rw [List.flatMap_eq_nil_iff.mpr fun _ _ => rfl]
      rfl
  · rw [overloads_ofKind hbuild rfl hplain, List.filter_flatMap,
      List.flatMap_congr fun site hsite => s.ownNodes_variables hnames hsite name]
    rfl

end Catalog

end AmbientCatalog
