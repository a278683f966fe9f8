import AmbientCatalog.Proofs.Agreement
import AmbientCatalog.Proofs.Roles

/-!
# The order of files

The index forgets the order of files as far as the survey is concerned: it depends on the order only
in which variable was declared last with a type, and whatever the statement of an interface asks for
because of that, the variable asks for as well. The role is settled, so the catalog holds the same
names and records in whatever order the files are given.
-/

set_option autoImplicit false

namespace AmbientCatalog

theorem TypesAgree.perm {sites sites' : List Site} (h : TypesAgree sites)
    (hperm : sites.Perm sites') : TypesAgree sites' := by
  have hannotations := hperm.flatMap_right Site.annotations
  intro declared hmem other hother
  exact h declared (hannotations.mem_iff.mpr hmem) other (hannotations.mem_iff.mpr hother)

namespace Index

theorem IsOf.agrees {index index' : Index} {sites sites' : List Site} (h : index.IsOf sites)
    (h' : index'.IsOf sites') (hperm : sites.Perm sites') (hagree : TypesAgree sites) :
    index.Agrees index' where
  typeOf := by
    funext name
    have hannotations := hperm.flatMap_right Site.annotations
    cases ht : index.typeOf name with
    | some typeName =>
      exact (h'.typeOf_eq (hagree.perm hperm)
        (hannotations.mem_iff.mp (h.annotation_of_typeOf ht))).symm
    | none =>
      cases ht' : index'.typeOf name with
      | none => rfl
      | some typeName =>
        have hknown := h.typeOf_eq hagree (hannotations.mem_iff.mpr (h'.annotation_of_typeOf ht'))
        exact absurd (ht.symm.trans hknown) (by simp)
  constructs := by
    funext name
    rw [Bool.eq_iff_iff, h.constructs, h'.constructs]
    simp only [(hperm.flatMap_right Site.interfaces).mem_iff]
  declares := by
    intro name decl
    rw [h.mem_interfaces, h'.mem_interfaces, (hperm.flatMap_right Site.interfaces).mem_iff]

namespace Agrees

variable {index index' : Index}

theorem mem_elements (h : index.Agrees index') {name : String} {member : Member} :
    member ∈ index.elements name ↔ member ∈ index'.elements name := by
  simp only [elements, List.mem_flatMap, h.declares]

theorem reaches (h : index.Agrees index') : index.Reaches = index'.Reaches := by
  have hextends : index.Extends = index'.Extends := by
    funext child parent
    simp only [Extends, h.declares, h.lookup]
  rw [Reaches, Reaches, hextends]

end Agrees

end Index

namespace Setting

variable {index index' : FiledIndex} {options : Options}

theorem settledRole_agrees (h : index.Agrees index') (interface binding : String) :
    (Setting.mk index options).settledRole interface binding =
      (Setting.mk index' options).settledRole interface binding := by
  simp only [settledRole, roleOf_agrees options h, h.typeOf]

theorem mem_constructed_agrees (h : index.Agrees index') {interface result : String} :
    result ∈ (Setting.mk index options).constructed interface ↔
      result ∈ (Setting.mk index' options).constructed interface := by
  simp only [constructed, List.mem_eraseDups, List.mem_flatMap, h.declares, h.lookup]

theorem brings_agrees (h : index.Agrees index') {interface name : String} :
    (Setting.mk index options).Brings interface name ↔
      (Setting.mk index' options).Brings interface name := by
  simp only [Brings, h.reaches, h.hasInterface]

theorem bears_agrees (h : index.Agrees index') {interface binding : String} {role : Role}
    {node : Node} (hbears : (Setting.mk index options).Bears interface role binding node) :
    (Setting.mk index' options).Bears interface role binding node := by
  obtain ⟨name, hbrings, member, hmem, rfl⟩ := hbears
  exact ⟨name, (brings_agrees h).mp hbrings, member, h.mem_elements.mp hmem, rfl⟩

theorem asks_agrees (h : index.Agrees index') {binding scope interface : String} {type : TypeExpr}
    {role : Role} (hasks : (Setting.mk index options).Asks binding scope type interface role) :
    (Setting.mk index' options).Asks binding scope type interface role := by
  cases hasks with
  | own hi hr => exact .own (h.hasInterface ▸ hi) (roleOf_agrees options h ▸ hr)
  | typed ht hl hne hr => exact .typed ht (h.lookup ▸ hl) hne (roleOf_agrees options h ▸ hr)
  | built ht hl hown hc hmem hne =>
    exact .built ht (h.lookup ▸ hl) (h.hasInterface ▸ hown) (h.constructs ▸ hc)
      ((mem_constructed_agrees h).mp hmem) hne

theorem held_variableSteps_agrees (h : index.Agrees index') (scope : String) (decl : VariableDecl)
    (declarator : Declarator) :
    held ((Setting.mk index options).variableSteps scope decl declarator) =
      held ((Setting.mk index' options).variableSteps scope decl declarator) := by
  cases declarator with
  | destructured => rfl
  | ident name type? => rw [held_variableSteps, held_variableSteps, isDescribed_agrees options h]

/-- What a site holds apart from requests is the same, except for placeholders. -/
theorem held_stepsAt_agrees (h : index.Agrees index') (site : Site) {step : Step} {node : Node}
    (hstep : step ∈ held ((Setting.mk index options).stepsAt site)) (hnode : node ∈ step.fixed)
    (hplain : node.isPlaceholder = false) :
    step ∈ held ((Setting.mk index' options).stepsAt site) := by
  obtain ⟨specifier, scope, start, decl?⟩ := site
  cases decl? with
  | none => exact hstep
  | some declared =>
    cases declared with
    | functionDecl decl =>
      rw [stepsAt] at hstep ⊢
      rwa [ofFunction_agrees options h] at hstep
    | variableDecl decl =>
      rw [stepsAt, held_flatMap] at hstep ⊢
      simpa only [held_variableSteps_agrees h] using hstep
    | interfaceDecl decl =>
      -- the only node here is a placeholder
      obtain ⟨hmem, hheld⟩ := List.mem_filter.mp hstep
      dsimp only [stepsAt, interfaceSteps] at hmem
      split at hmem
      · simp at hmem
      · split at hmem
        · obtain rfl := List.mem_singleton.mp hmem
          simp [Step.isRequest] at hheld
        · obtain rfl := List.mem_singleton.mp hmem
          obtain rfl := List.mem_singleton.mp hnode
          rw [Node.placeholder_isPlaceholder] at hplain
          exact absurd hplain (by simp)
    | _ => exact hstep

end Setting

def reservedTypeNames : List String := complexTypeName :: Keyword.all.map Keyword.text

def Unreserved (sites : List Site) : Prop :=
  ∀ site ∈ sites, ∀ declared ∈ site.interfaces, declared.2.name ∉ reservedTypeNames

instance (sites : List Site) : Decidable (Unreserved sites) :=
  inferInstanceAs (Decidable (∀ site ∈ sites, ∀ declared ∈ site.interfaces,
    declared.2.name ∉ reservedTypeNames))

theorem Keyword.text_mem_reserved (word : Keyword) : word.text ∈ reservedTypeNames := by
  cases word <;> decide

structure Setting.Regular (s : Setting) (sites : List Site) : Prop where
  index : s.index.IsOf sites
  names : WellNamed sites
  agree : TypesAgree sites
  free : Unreserved sites

namespace Setting.Regular

variable {s : Setting} {sites : List Site}

theorem hasInterface_reserved (h : s.Regular sites) {word : String} (hw : word ∈ reservedTypeNames)
    (scope : String) : s.index.hasInterface (Name.qualify word scope) = false := by
  have hident : ∀ word ∈ reservedTypeNames, Name.IsIdentifier word := by decide
  by_contra hi
  obtain ⟨decl, hmem⟩ := h.index.hasInterface_iff.mp (by simpa using hi)
  obtain ⟨site, hsite, hdecl⟩ := List.mem_flatMap.mp hmem
  obtain ⟨other, -, hname, heq⟩ := h.names.interface hmem
  have hsame := (Name.qualify_injective (hident word hw) hname heq).1
  exact h.free site hsite _ hdecl (hsame ▸ hw)

theorem lookup_reserved (h : s.Regular sites) {word : String} (hw : word ∈ reservedTypeNames)
    (scope : String) : s.index.lookup word scope = none := by
  rw [Index.lookup, List.find?_eq_none]
  intro name hname
  obtain ⟨outer, -, rfl⟩ := List.mem_map.mp hname
  simp [h.hasInterface_reserved hw outer]

/-- An interface has the same role by the recorded name of an annotation as by the annotation. -/
theorem roleOf_recordedName (h : s.Regular sites) {interface : String}
    (hi : s.index.hasInterface interface = true) (binding : String) (type : TypeExpr) :
    s.roleOf interface binding (some type.recordedName) =
      s.roleOf interface binding type.simpleName? := by
  cases hsimple : type.simpleName? with
  | some name => simp [TypeExpr.recordedName, hsimple]
  | none =>
    have hw : complexTypeName ∈ reservedTypeNames := List.mem_cons_self
    have hne : complexTypeName ≠ interface := by
      rintro rfl
      exact absurd ((h.hasInterface_reserved hw "").symm.trans hi) (by simp)
    simp [Setting.roleOf, TypeExpr.recordedName, hsimple, h.lookup_reserved hw, Role.classify, hne]

theorem unmistaken (h : s.Regular sites) (binding : String) : s.Unmistaken sites binding := by
  intro hi hcomplex
  obtain ⟨site, hsite, type, htyped, hnone⟩ : ∃ site ∈ sites, ∃ type,
      (binding, type) ∈ site.typedVariables ∧ type.simpleName? = none := by
    by_contra hall
    refine hcomplex (fun site hsite typed htyped hname => ?_)
    obtain ⟨name, type⟩ := typed
    obtain rfl : name = binding := hname
    by_contra hnone
    exact hall ⟨site, hsite, type, htyped, by simpa using hnone⟩
  have hknown := h.index.typeOf_eq h.agree (Site.annotation_of_typedVariable hsite htyped)
  rw [hknown, h.roleOf_recordedName hi, hnone, Setting.roleOf_self_none]

theorem settles (h : s.Regular sites) (interface binding : String) :
    Settles interface binding (s.settledRole interface binding) (sites.flatMap s.stepsAt) :=
  stepsAt_settle h.index h.names h.agree (h.unmistaken binding) interface

/-- What the statement of an interface asks for on behalf of the last variable declared with it, the
variable asks for itself. -/
theorem asks_of_nameOfType (h : s.Regular sites) {interface binding : String}
    (hi : s.index.hasInterface interface = true) (hnone : s.index.typeOf interface = none)
    (hname : s.index.nameOfType interface = some binding) :
    ∃ site ∈ sites, ∃ type, (binding, type) ∈ site.typedVariables ∧ type.isKeyword = false ∧
      s.Asks binding site.scope type interface .constructorSide := by
  obtain ⟨site, hsite, type, typeName, htyped, hsimple, rfl⟩ := h.index.typing_of_nameOfType hname
  have hknown := h.index.typeOf_eq h.agree (Site.annotation_of_typedVariable hsite htyped)
  have hkeyword : type.isKeyword = false := by
    cases type with
    | keyword word =>
      obtain rfl : word.text = typeName := Option.some.inj hsimple
      have hnot := h.hasInterface_reserved word.text_mem_reserved site.scope
      exact absurd (hnot.symm.trans hi) (by simp)
    | _ => rfl
  have hne : Name.qualify typeName site.scope ≠ binding := by
    rintro rfl
    exact absurd (hnone.symm.trans hknown) (by simp)
  have hl := Index.lookup_innermost hi
  refine ⟨site, hsite, type, htyped, hkeyword, .typed hsimple hl hne ?_⟩
  obtain ⟨name, hident, rfl⟩ := h.names.typedVariable hsite htyped
  have hparent := Name.parent_qualify hident site.scope
  rw [s.roleOf_of_lookup (hparent.symm ▸ hl : s.index.lookup typeName
    (Name.parent (Name.qualify name site.scope)) = some (Name.qualify typeName site.scope))]
  simp [Role.classify, Ne.symm hne]

end Setting.Regular

namespace Setting

variable {index index' : FiledIndex} {options : Options} {sites sites' : List Site}

theorem request_agrees (h : (Setting.mk index options).Regular sites)
    (hagrees : index.Agrees index') (hperm : sites.Perm sites') {interface binding : String}
    {role : Role}
    (hrequest : .request interface role binding ∈
      sites.flatMap (Setting.mk index options).stepsAt) :
    ∃ role', .request interface role' binding ∈
      sites'.flatMap (Setting.mk index' options).stepsAt := by
  obtain ⟨site, hsite, hmem⟩ := List.mem_flatMap.mp hrequest
  rcases (Setting.mk index options).mem_stepsAt.mp hmem with
    ⟨type, htyped, hkeyword, hasks⟩ | ⟨hdecl, ⟨rfl, hknown⟩ | ⟨hnone, hname⟩, hrole⟩
  · refine ⟨role, List.mem_flatMap.mpr ⟨site, hperm.mem_iff.mp hsite, ?_⟩⟩
    exact mem_stepsAt _ |>.mpr (.inl ⟨type, htyped, hkeyword, asks_agrees hagrees hasks⟩)
  · refine ⟨role, List.mem_flatMap.mpr ⟨site, hperm.mem_iff.mp hsite, ?_⟩⟩
    refine mem_stepsAt _ |>.mpr (.inr ⟨hdecl, .inl ⟨rfl, ?_⟩, ?_⟩)
    · rwa [hagrees.isKnown] at hknown
    · rwa [roleOf_agrees options hagrees, hagrees.typeOf] at hrole
  · obtain ⟨decl, hdecl⟩ := hdecl
    have hi : index.hasInterface interface = true :=
      h.index.hasInterface_iff.mpr ⟨decl, List.mem_flatMap.mpr ⟨site, hsite, hdecl⟩⟩
    obtain ⟨other, hother, type, htyped, hkeyword, hasks⟩ := h.asks_of_nameOfType hi hnone hname
    refine ⟨.constructorSide, List.mem_flatMap.mpr ⟨other, hperm.mem_iff.mp hother, ?_⟩⟩
    exact mem_stepsAt _ |>.mpr (.inl ⟨type, htyped, hkeyword, asks_agrees hagrees hasks⟩)

/-- Up to placeholders, a plan emits the same nodes for the sites in another order. -/
theorem emits_agrees (h : (Setting.mk index options).Regular sites)
    (h' : (Setting.mk index' options).Regular sites') (hagrees : index.Agrees index')
    (hperm : sites.Perm sites') {node : Node} (hplain : node.isPlaceholder = false)
    (hemits : (Setting.mk index options).Emits []
      (sites.flatMap (Setting.mk index options).stepsAt) node) :
    (Setting.mk index' options).Emits []
      (sites'.flatMap (Setting.mk index' options).stepsAt) node := by
  rcases hemits with ⟨step, hstep, hnode⟩ | ⟨interface, binding, role, -, hfirst, hbears⟩
  · have hheld : step.isRequest = false := by
      cases step with
      | request interface role binding => simp [Step.fixed] at hnode
      | _ => rfl
    obtain ⟨site, hsite, hmem⟩ := List.mem_flatMap.mp hstep
    have hother := held_stepsAt_agrees hagrees site
      (List.mem_filter.mpr ⟨hmem, by simp [hheld]⟩) hnode hplain
    refine .inl ⟨step, List.mem_flatMap.mpr ⟨site, hperm.mem_iff.mp hsite, ?_⟩, hnode⟩
    exact (List.mem_filter.mp hother).1
  · obtain ⟨rfl, role', hrequest⟩ := ((h.settles interface binding).firstRole_eq role).mp hfirst
    rw [settledRole_agrees hagrees] at hbears
    refine .inr ⟨interface, binding, _, List.not_mem_nil, ?_, bears_agrees hagrees hbears⟩
    exact ((h'.settles interface binding).firstRole_eq _).mpr
      ⟨rfl, request_agrees h hagrees hperm hrequest⟩

end Setting

theorem Setting.Regular.ofFiles (options : Options) {files : List SourceFile}
    (hagree : TypesAgree (fileSites .stepwise files))
    (hfree : Unreserved (fileSites .stepwise files)) :
    ((Corpus.ofFiles files).setting options).Regular (fileSites .stepwise files) := by
  have hindex := (Corpus.ofFiles files).index_isOf
  rw [Corpus.fileSites_ofFiles] at hindex
  exact ⟨hindex, wellNamed_fileSites files, hagree, hfree⟩

/-- Where types agree and no interface has a reserved name, files in another order give the same
names, the same records of each name and, up to their order, the same diagnostics. -/
theorem Catalog.build_perm (options : Options) {files files' : List SourceFile}
    (hperm : files.Perm files') (hagree : TypesAgree (fileSites .stepwise files))
    (hfree : Unreserved (fileSites .stepwise files)) :
    ∃ catalog catalog', build (Corpus.ofFiles files) options = .ok catalog ∧
      build (Corpus.ofFiles files') options = .ok catalog' ∧
      (∀ name, name ∈ catalog.registry.names ↔ name ∈ catalog'.registry.names) ∧
      (∀ name record, record ∈ catalog.recordsOf name ↔ record ∈ catalog'.recordsOf name) ∧
      catalog.diagnostics.Perm catalog'.diagnostics := by
  have hsites : (fileSites .stepwise files).Perm (fileSites .stepwise files') :=
    hperm.flatMap_right _
  have hfree' : Unreserved (fileSites .stepwise files') :=
    fun site hsite => hfree site (hsites.mem_iff.mpr hsite)
  have hregular := Setting.Regular.ofFiles options hagree hfree
  have hregular' := Setting.Regular.ofFiles options (hagree.perm hsites) hfree'
  have hagrees := hregular.index.agrees hregular'.index hsites hagree
  obtain ⟨catalog, hbuild, hcatalog⟩ := build_isOf (Corpus.ofFiles files) options
  obtain ⟨catalog', hbuild', hcatalog'⟩ := build_isOf (Corpus.ofFiles files') options
  rw [Corpus.fileSites_ofFiles] at hcatalog hcatalog'
  have hsame : ∀ node : Node, node.isPlaceholder = false →
      (((Corpus.ofFiles files).setting options).Emits []
        ((fileSites .stepwise files).flatMap
          ((Corpus.ofFiles files).setting options).stepsAt) node ↔
      ((Corpus.ofFiles files').setting options).Emits []
        ((fileSites .stepwise files').flatMap
          ((Corpus.ofFiles files').setting options).stepsAt) node) := by
    intro node hplain
    constructor
    · exact Setting.emits_agrees hregular hregular' hagrees hsites hplain
    · exact Setting.emits_agrees hregular' hregular hagrees.symm hsites.symm hplain
  refine ⟨catalog, catalog', hbuild, hbuild', fun name => ?_, fun name record => ?_, ?_⟩
  · rw [hcatalog.names, hcatalog'.names]
    exact exists_congr fun node => and_congr_left fun hnode => hsame node hnode.1
  · rw [hcatalog.records, hcatalog'.records]
    exact exists_congr fun node => and_congr_left fun hnode => hsame node hnode.1
  · rw [hcatalog.diagnostics, hcatalog'.diagnostics]
    exact hsites.flatMap_right _

theorem Catalog.build_perm_map :
    ∃ catalog catalog', build (Corpus.ofFiles [mapTypes, mapGlobals]) {} = .ok catalog ∧
      build (Corpus.ofFiles [mapGlobals, mapTypes]) {} = .ok catalog' ∧
      (∀ name, name ∈ catalog.registry.names ↔ name ∈ catalog'.registry.names) ∧
      (∀ name record, record ∈ catalog.recordsOf name ↔ record ∈ catalog'.recordsOf name) ∧
      catalog.diagnostics.Perm catalog'.diagnostics :=
  build_perm {} (List.Perm.swap _ _ _) (by decide) (by decide)

end AmbientCatalog
