import AmbientCatalog.Proofs.Requests

/-!
# Statements that are passed over

A survey reaches the statements of a file and, behind each namespace and each global block, the
statements inside it; what stands in a module outside is not reached. Of these statements it reports
the ones that declare nothing the catalog can describe, each where it starts in its own file.
Nothing else has a part in the reports: whatever the index answers, whatever has been described
before and whatever is registered on the way, they are the same.
-/

set_option autoImplicit false

namespace AmbientCatalog

mutual
def Decl.reachedInside : Decl → List Item
  | .namespaceDecl _ _ items => reachedIn items
  | .globalBlock items => reachedIn items
  | .outsideModule => []
  | .functionDecl _ => []
  | .variableDecl _ => []
  | .interfaceDecl _ => []
  | .classDecl _ => []
  | .aliasDecl _ _ => []
  | .enumDecl => []
  | .usingDecl => []

def Content.reachedInside : Content → List Item
  | .plain decl => decl.reachedInside
  | .exported decl => decl.reachedInside
  | .empty => []
  | .other => []

def Item.reached : Item → List Item
  | .mk start content => .mk start content :: content.reachedInside

def reachedIn : List Item → List Item
  | [] => []
  | item :: items => item.reached ++ reachedIn items
end

def Decl.isUnsupported : Decl → Bool
  | .enumDecl => true
  | .usingDecl => true
  | _ => false

def Content.isUnsupported : Content → Bool
  | .plain decl => decl.isUnsupported
  | .exported decl => decl.isUnsupported
  | .empty => false
  | .other => true

def Item.isUnsupported (item : Item) : Bool := item.content.isUnsupported

def reports (specifier : String) (items : List Item) : List Diagnostic :=
  (items.filter Item.isUnsupported).map (fun item => ⟨specifier, item.start⟩)

def fileReports (files : List SourceFile) : List Diagnostic :=
  files.flatMap (fun file => reports file.specifier (reachedIn file.items))

theorem reports_append (specifier : String) (items items' : List Item) :
    reports specifier (items ++ items') = reports specifier items ++ reports specifier items' := by
  simp [reports]

theorem reports_mk (specifier : String) (start : Position) (content : Content)
    (items : List Item) :
    reports specifier (.mk start content :: items) =
      (if content.isUnsupported then [⟨specifier, start⟩] else []) ++
        reports specifier items := by
  cases h : content.isUnsupported with
  | false => simp [reports, Item.isUnsupported, Item.content, h]
  | true => simp [reports, Item.isUnsupported, Item.content, Item.start, h]

section Sites

variable (nest : Nesting) (specifier : String)

mutual
theorem Decl.diagnostics_sites (scope : String) (start : Position) : ∀ decl : Decl,
    (decl.sites nest specifier scope start).flatMap Site.diagnostics =
      (if decl.isUnsupported then [⟨specifier, start⟩] else []) ++
        reports specifier decl.reachedInside
  | .namespaceDecl isDeclared parts items => by
    rw [Decl.sites, List.flatMap_cons, diagnostics_sitesOf, Decl.reachedInside]
    rfl
  | .globalBlock items => by
    rw [Decl.sites, diagnostics_sitesOf, Decl.reachedInside]
    rfl
  | .functionDecl _ => rfl
  | .variableDecl _ => rfl
  | .interfaceDecl _ => rfl
  | .classDecl _ => rfl
  | .outsideModule => rfl
  | .aliasDecl _ _ => rfl
  | .enumDecl => rfl
  | .usingDecl => rfl

theorem Content.diagnostics_sites (scope : String) (start : Position) : ∀ content : Content,
    (content.sites nest specifier scope start).flatMap Site.diagnostics =
      (if content.isUnsupported then [⟨specifier, start⟩] else []) ++
        reports specifier content.reachedInside
  | .plain decl => Decl.diagnostics_sites scope start decl
  | .exported decl => Decl.diagnostics_sites scope start decl
  | .empty => rfl
  | .other => rfl

theorem Item.diagnostics_sites (scope : String) : ∀ item : Item,
    (item.sites nest specifier scope).flatMap Site.diagnostics = reports specifier item.reached
  | .mk start content => by
    rw [Item.sites, Item.reached, reports_mk, Content.diagnostics_sites]

/-- The sites of a list of statements report the statements that the walk reaches. -/
theorem diagnostics_sitesOf (scope : String) : ∀ items : List Item,
    (sitesOf nest specifier scope items).flatMap Site.diagnostics =
      reports specifier (reachedIn items)
  | [] => rfl
  | item :: items => by
    rw [sitesOf, List.flatMap_append, reachedIn, reports_append, Item.diagnostics_sites,
      diagnostics_sitesOf]
end

end Sites

theorem diagnostics_fileSites (nest : Nesting) (files : List SourceFile) :
    (fileSites nest files).flatMap Site.diagnostics = fileReports files := by
  rw [fileSites, fileReports, List.flatMap_assoc]
  exact List.flatMap_congr fun file _ => diagnostics_sitesOf nest file.specifier "" file.items

theorem fileReports_numbered (id : Nat) (files : List SourceFile) :
    fileReports (numbered id files) = fileReports files := by
  rw [← diagnostics_fileSites .stepwise, fileSites_numbered, diagnostics_fileSites]

/-- A survey that comes to its end reports the same in every setting and after everything that was
described before. -/
theorem Setting.ofFiles_reports (s : Setting) {files : List SourceFile}
    {done done' : List (String × String)} {found : List Finding}
    (h : s.ofFiles files done = .ok (found, done')) :
    found.filterMap Finding.diagnostic? = fileReports files := by
  have hyields := congrFun (s.ofFiles_yields files) done
  simp only [Functor.map, StateT.map, bind, Except.bind, pure, Except.pure, h] at hyields
  rw [← diagnostics_fileSites .stepwise]
  cases hrun : s.performAll ((fileSites .stepwise files).flatMap s.stepsAt) done with
  | error e => simp [hrun] at hyields
  | ok run =>
    simp only [hrun, Except.ok.injEq, Prod.mk.injEq] at hyields
    exact congrArg Prod.snd hyields.1

theorem Catalog.build_reports (corpus : Corpus) (options : Options) :
    ∃ catalog, build corpus options = .ok catalog ∧
      catalog.diagnostics = fileReports corpus.files := by
  obtain ⟨nodes, done, -, hbuild, -⟩ := build_run corpus options
  exact ⟨_, hbuild, diagnostics_fileSites .stepwise corpus.files⟩

/-- The diagnostics are one for each unsupported statement that the walk reaches, in its order, each
with its file and start, whatever the index, the options and what has been described before. -/
theorem Catalog.build_accounts (corpus corpus' : Corpus) (options options' joint : Options) :
    (∃ catalog, build corpus options = .ok catalog ∧
      catalog.diagnostics = corpus.files.flatMap (fun file =>
        ((reachedIn file.items).filter Item.isUnsupported).map
          (fun item => ⟨file.specifier, item.start⟩))) ∧
    (∀ (s : Setting) done found done', s.ofFiles corpus.files done = .ok (found, done') →
      ∃ catalog, build corpus options = .ok catalog ∧
        found.filterMap Finding.diagnostic? = catalog.diagnostics) ∧
    ∃ catalog catalog' whole, build corpus options = .ok catalog ∧
      build corpus' options' = .ok catalog' ∧
      build (Corpus.ofFiles (corpus.files ++ corpus'.files)) joint = .ok whole ∧
      whole.diagnostics = catalog.diagnostics ++ catalog'.diagnostics := by
  obtain ⟨catalog, hbuild, hreports⟩ := build_reports corpus options
  obtain ⟨catalog', hbuild', hreports'⟩ := build_reports corpus' options'
  obtain ⟨whole, hwhole, hjoined⟩ :=
    build_reports (Corpus.ofFiles (corpus.files ++ corpus'.files)) joint
  refine ⟨⟨catalog, hbuild, hreports⟩, fun s done found done' hrun => ?_,
    catalog, catalog', whole, hbuild, hbuild', hwhole, ?_⟩
  · exact ⟨catalog, hbuild, (s.ofFiles_reports hrun).trans hreports.symm⟩
  · rw [hjoined, Corpus.ofFiles, fileReports_numbered, hreports, hreports']
    exact List.flatMap_append

def weekdayFile : SourceFile :=
  { id := 0
    specifier := "file:///weekday.d.ts"
    mediaType := .dts
    items := [
      .mk ⟨1, 1⟩ (.plain (.namespaceDecl true ["Calendar"] [
        .mk ⟨2, 3⟩ (.exported .enumDecl),
        .mk ⟨3, 3⟩ (.plain (.globalBlock [
          .mk ⟨4, 5⟩ .empty,
          .mk ⟨5, 5⟩ (.plain .usingDecl)])),
        .mk ⟨7, 3⟩ (.plain .enumDecl)])),
      .mk ⟨9, 1⟩ (.plain .outsideModule),
      .mk ⟨10, 1⟩ .other]
    named := by decide }

theorem Catalog.build_accounts_weekday :
    ∃ catalog found done, build (Corpus.ofFiles [weekdayFile]) {} = .ok catalog ∧
      catalog.diagnostics = [⟨2, 3⟩, ⟨5, 5⟩, ⟨7, 3⟩, ⟨10, 1⟩].map
        (fun start => ⟨"file:///weekday.d.ts", start⟩) ∧
      (Corpus.empty.setting { objectHeritage := false }).ofFiles [weekdayFile] [("Day", "Day")] =
        .ok (found, done) ∧
      found.filterMap Finding.diagnostic? = catalog.diagnostics := by
  obtain ⟨⟨catalog, hbuild, hreports⟩, hsurvey, -⟩ :=
    build_accounts (Corpus.ofFiles [weekdayFile]) Corpus.empty {} {} {}
  obtain ⟨other, hother, hsame⟩ :=
    hsurvey (Corpus.empty.setting { objectHeritage := false }) [("Day", "Day")] _ _ rfl
  obtain rfl : other = catalog := Except.ok.inj (hother.symm.trans hbuild)
  exact ⟨other, _, _, hbuild, hreports, rfl, hsame⟩

end AmbientCatalog
