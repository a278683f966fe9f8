import AmbientCatalog.Proofs.Flattening

/-!
# The identities of files

The index stores the bare number of a file beside each interface and namespace, and whoever reads
the number looks the file up in the corpus. So a corpus may only grow at its end, and a text that
does not parse may not leave a gap. The invariant of a run of calls is that the corpus is made of
the texts that parsed: as many files as such texts, and at each place the file of the text at that
place, with the place as its number.
-/

set_option autoImplicit false

namespace AmbientCatalog

structure Offer where
  url : Url
  text : String

namespace Offer

def items? (offer : Offer) : Option (List Item) :=
  Syntax.parse? offer.url.mediaType.isTyped offer.text

def parses (offer : Offer) : Bool := offer.items?.isSome

end Offer

structure SourceFile.MadeFrom (file : SourceFile) (offer : Offer) : Prop where
  specifier : file.specifier = offer.url.text
  mediaType : file.mediaType = offer.url.mediaType
  items : offer.items? = some file.items

namespace Corpus

def offer (corpus : Corpus) (call : Offer) : Except LoadError Nat × Corpus :=
  match corpus.add call.url call.text with
  | .ok grown => (.ok corpus.size, grown)
  | .error e => (.error e, corpus)

def run (calls : List Offer) : Corpus :=
  calls.foldl (fun corpus call => (corpus.offer call).2) empty

theorem run_append (calls more : List Offer) :
    run (calls ++ more) = more.foldl (fun corpus call => (corpus.offer call).2) (run calls) :=
  List.foldl_append

theorem run_concat (calls : List Offer) (call : Offer) :
    run (calls ++ [call]) = ((run calls).offer call).2 :=
  run_append calls [call]

section Call

variable (corpus : Corpus) {call : Offer}

theorem offer_unparsed (h : call.items? = none) :
    corpus.offer call = (.error (.unparsable call.url.text), corpus) := by
  have hadd : corpus.add call.url call.text = .error (.unparsable call.url.text) := by
    unfold add
    split
    · rfl
    · next items hparse => exact absurd (h.symm.trans hparse) (by simp)
  rw [offer, hadd]

theorem offer_parsed {items : List Item} (h : call.items? = some items) :
    ∃ file, (corpus.offer call).1 = .ok corpus.size ∧
      (corpus.offer call).2.files = corpus.files ++ [file] ∧
      file.id = corpus.size ∧ file.MadeFrom call := by
  have hadd : ∃ file, ∃ hid : file.id = corpus.size,
      corpus.add call.url call.text = .ok (corpus.extend file hid) ∧ file.MadeFrom call := by
    unfold add
    split
    · next hparse => exact absurd (h.symm.trans hparse) (by simp)
    · next parsed hparse => exact ⟨_, rfl, rfl, ⟨rfl, rfl, hparse⟩⟩
  obtain ⟨file, hid, hadd, hmade⟩ := hadd
  rw [offer, hadd]
  exact ⟨file, rfl, rfl, hid, hmade⟩

theorem offer_extends (call : Offer) :
    corpus.files <+: (corpus.offer call).2.files := by
  cases h : call.items? with
  | none => simp [offer_unparsed _ h]
  | some items =>
    obtain ⟨file, -, hfiles, -⟩ := offer_parsed corpus h
    rw [hfiles]
    exact List.prefix_append corpus.files [file]

end Call

theorem run_extends (calls more : List Offer) :
    (run calls).files <+: (run (calls ++ more)).files := by
  rw [run_append]
  generalize run calls = corpus
  induction more generalizing corpus with
  | nil => exact List.prefix_rfl
  | cons call more ih => exact (offer_extends corpus call).trans (ih _)

theorem file?_eq_none_iff (corpus : Corpus) (k : Nat) :
    corpus.file? k = none ↔ corpus.size ≤ k :=
  List.getElem?_eq_none_iff

/-- A corpus consists of the files of some texts, in their order, each numbered by its place. -/
structure MadeOf (corpus : Corpus) (offers : List Offer) : Prop where
  size : corpus.size = offers.length
  file : ∀ {k file}, corpus.file? k = some file →
    file.id = k ∧ ∃ offer, offers[k]? = some offer ∧ file.MadeFrom offer

namespace MadeOf

variable {corpus : Corpus} {call : Offer} {offers : List Offer}

theorem empty : Corpus.empty.MadeOf [] where
  size := rfl
  file h := by simp [file?, Corpus.empty] at h

theorem offer_parsed (h : corpus.MadeOf offers) {items : List Item}
    (hparse : call.items? = some items) : (corpus.offer call).2.MadeOf (offers ++ [call]) := by
  obtain ⟨added, -, hfiles, hid, hmade⟩ := Corpus.offer_parsed corpus hparse
  have hlength : corpus.files.length = offers.length := h.size
  refine ⟨by simp [Corpus.size, hfiles, hlength], ?_⟩
  intro k file hfile
  rw [file?, hfiles] at hfile
  by_cases hk : k < corpus.files.length
  · -- an earlier file stays where it was
    obtain ⟨hfileId, offer, hget, hfrom⟩ := h.file
      (show corpus.files[k]? = some file from List.getElem?_append_left hk ▸ hfile)
    exact ⟨hfileId, offer, by rw [List.getElem?_append_left (hlength ▸ hk)]; exact hget, hfrom⟩
  · have hlast : [added][k - corpus.files.length]? = some file :=
      List.getElem?_append_right (Nat.le_of_not_lt hk) ▸ hfile
    obtain ⟨hkk, rfl⟩ : k = corpus.files.length ∧ added = file := by
      rw [List.getElem?_singleton] at hlast
      split_ifs at hlast with hzero
      exact ⟨by omega, Option.some.inj hlast⟩
    exact ⟨hid.trans hkk.symm, call, by simp [hkk, hlength], hmade⟩

theorem file?_id (h : corpus.MadeOf offers) {file : SourceFile} (hfile : file ∈ corpus.files) :
    corpus.file? file.id = some file := by
  obtain ⟨k, hk⟩ := List.mem_iff_getElem?.mp hfile
  rw [(h.file hk).1]
  exact hk

end MadeOf

/-- After every run of calls the corpus is made of the texts that parsed. -/
theorem run_madeOf (calls : List Offer) : (run calls).MadeOf (calls.filter Offer.parses) := by
  induction calls using List.reverseRecOn with
  | nil => exact MadeOf.empty
  | append_singleton calls call ih =>
    rw [run_concat, List.filter_append]
    cases h : call.items? with
    | none =>
      rw [offer_unparsed _ h]
      simpa [Offer.parses, h] using ih
    | some items =>
      rw [show [call].filter Offer.parses = [call] by simp [Offer.parses, h]]
      exact ih.offer_parsed h

/-- The calls that fail might as well not have been made. -/
theorem run_parsed (calls : List Offer) : run (calls.filter Offer.parses) = run calls := by
  induction calls using List.reverseRecOn with
  | nil => rfl
  | append_singleton calls call ih =>
    rw [run_concat, List.filter_append]
    cases h : call.items? with
    | none =>
      rw [offer_unparsed _ h]
      simpa [Offer.parses, h] using ih
    | some items =>
      rw [show [call].filter Offer.parses = [call] by simp [Offer.parses, h], run_concat, ih]

end Corpus

def Site.containers (file : Nat) (site : Site) : List ContainerEntry :=
  match site.decl? with
  | some (.interfaceDecl decl) => [⟨Name.qualify decl.name site.scope, file, .interface decl⟩]
  | some (.namespaceDecl _ parts _) =>
    [⟨Nesting.joined site.scope parts, file, .namespaceBlock⟩]
  | _ => []

def SourceFile.containers (file : SourceFile) : List ContainerEntry :=
  (sitesOf .joined file.specifier "" file.items).flatMap (Site.containers file.id)

namespace SourceFile

theorem file_of_mem_containers {file : SourceFile} {entry : ContainerEntry}
    (h : entry ∈ file.containers) : entry.file = file.id := by
  obtain ⟨⟨specifier, scope, start, decl?⟩, -, hin⟩ := List.mem_flatMap.mp h
  simp only [Site.containers] at hin
  split at hin <;> simp_all

end SourceFile

namespace Index

theorem addSite_containers (file : Nat) (index : Index) (site : Site) :
    (index.addSite file site).containers = index.containers ++ site.containers file := by
  obtain ⟨specifier, scope, start, decl?⟩ := site
  cases decl? with
  | none => simp [addSite, Site.containers]
  | some decl =>
    cases decl with
    | functionDecl decl =>
      cases hr : decl.signature.result <;> simp [addSite, addFunction, Site.containers, hr]
    | variableDecl decl => simp [addSite, foldl_addDeclarator, Site.containers]
    | interfaceDecl decl =>
      simp only [addSite, addInterface, addContainer, Site.containers]
      split_ifs <;> rfl
    | namespaceDecl isDeclared parts items => rfl
    | _ => simp [addSite, Site.containers]

theorem addSites_containers (file : Nat) (sites : List Site) (index : Index) :
    (sites.foldl (addSite file) index).containers =
      index.containers ++ sites.flatMap (Site.containers file) := by
  induction sites generalizing index with
  | nil => simp
  | cons site sites ih =>
    rw [List.foldl_cons, ih, addSite_containers, List.flatMap_cons, List.append_assoc]

theorem addFiles_containers (files : List SourceFile) (index : Index) :
    (files.foldl (fun index file => index.addItems file.id "" file.items) index).containers =
      index.containers ++ files.flatMap SourceFile.containers := by
  induction files generalizing index with
  | nil => simp
  | cons file files ih =>
    rw [List.foldl_cons, ih, addItems_sites file.id file.specifier, addSites_containers,
      List.flatMap_cons, SourceFile.containers, List.append_assoc]

end Index

namespace Corpus

variable {corpus : Corpus} {offers : List Offer}

theorem index_containers (corpus : Corpus) :
    corpus.index.containers = corpus.files.flatMap SourceFile.containers :=
  Index.addFiles_containers corpus.files {}

/-- The number stored with a container leads to the file that declares it. -/
theorem MadeOf.container (h : corpus.MadeOf offers) {entry : ContainerEntry}
    (hentry : entry ∈ corpus.index.containers) :
    ∃ file, corpus.file? entry.file = some file ∧ entry ∈ file.containers := by
  rw [index_containers] at hentry
  obtain ⟨file, hfile, hin⟩ := List.mem_flatMap.mp hentry
  rw [SourceFile.file_of_mem_containers hin]
  exact ⟨file, h.file?_id hfile, hin⟩

end Corpus

/-- After any calls the corpus consists of the files that parsed, in order and numbered by place.
What the index stores leads to the declaring file, so the search for members passes no declaration
over. -/
theorem Corpus.run_identities (calls : List Offer) :
    (∀ call : Offer,
      (call.parses = false ∧
        (run calls).offer call = (.error (.unparsable call.url.text), run calls)) ∨
      (call.parses = true ∧ ∃ file, file.id = (run calls).size ∧ file.MadeFrom call ∧
        ((run calls).offer call).1 = .ok (run calls).size ∧
        ((run calls).offer call).2.files = (run calls).files ++ [file])) ∧
    (∀ more, (run calls).files <+: (run (calls ++ more)).files) ∧
    (run calls).size = (calls.filter Offer.parses).length ∧
    (∀ k, (run calls).file? k = none ↔ (run calls).size ≤ k) ∧
    (∀ k file, (run calls).file? k = some file →
      file.id = k ∧ ∃ call, (calls.filter Offer.parses)[k]? = some call ∧ file.MadeFrom call) ∧
    (∀ options, Catalog.build (run calls) options =
      Catalog.build (run (calls.filter Offer.parses)) options) ∧
    (∀ entry ∈ (run calls).index.containers, ∃ file,
      (run calls).file? entry.file = some file ∧ entry ∈ file.containers) ∧
    (∀ name, (run calls).filedIndex.declared name = (run calls).index.interfaces name) := by
  have hmade := run_madeOf calls
  refine ⟨?_, run_extends calls, hmade.size, file?_eq_none_iff _, fun _ _ => hmade.file,
    fun options => by rw [run_parsed], fun _ => hmade.container,
    fun name => (run calls).filedIndex.declared_eq name⟩
  intro call
  cases h : call.items? with
  | none => exact .inl ⟨by simp [Offer.parses, h], offer_unparsed _ h⟩
  | some items =>
    obtain ⟨file, hanswer, hfiles, hid, hfrom⟩ := offer_parsed (run calls) h
    exact .inr ⟨by simp [Offer.parses, h], file, hid, hfrom, hanswer, hfiles⟩

def offerAt (path text : String) : Offer := ⟨⟨"file", some "", path, none, none⟩, text⟩

def mapOffer : Offer := offerAt "/map.d.ts" "declare var map: Map;"

def gapOffer : Offer := offerAt "/gap.d.ts" "declare var ;"

def setOffer : Offer := offerAt "/set.d.ts" "declare var set: Set;"

theorem Corpus.run_identities_gap :
    (run [mapOffer, gapOffer, setOffer]).size = 2 ∧
      ∃ file, (run [mapOffer, gapOffer, setOffer]).file? 1 = some file ∧ file.id = 1 ∧
        file.MadeFrom setOffer := by
  obtain ⟨-, -, hsize, hnone, hfile, -⟩ := run_identities [mapOffer, gapOffer, setOffer]
  have hparsed : mapOffer.parses ∧ gapOffer.parses = false ∧ setOffer.parses := by decide +kernel
  have hoffers : [mapOffer, gapOffer, setOffer].filter Offer.parses = [mapOffer, setOffer] := by
    simp [hparsed]
  rw [hoffers] at hsize hfile
  obtain ⟨file, hget⟩ : ∃ file, (run [mapOffer, gapOffer, setOffer]).file? 1 = some file :=
    Option.ne_none_iff_exists'.mp (fun h => absurd ((hnone 1).mp h) (by simp [hsize]))
  obtain ⟨hid, call, hcall, hmade⟩ := hfile 1 file hget
  obtain rfl := Option.some.inj hcall
  exact ⟨hsize, file, hget, hid, hmade⟩

end AmbientCatalog
