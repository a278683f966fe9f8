import AmbientCatalog.CommandLine
import AmbientCatalog.Proofs.Directories
import AmbientCatalog.Proofs.Trimming

/-!
# List files

A list file holds entries one on a line, with blanks around them, lines that are blank or a comment
in between, and lines that end in a line feed with or without a carriage return. What is read off a
text is exactly what the text holds in this sense. So the files of a list that lies in the working
directory are those the entries would be as arguments.
-/

set_option autoImplicit false

namespace AmbientCatalog.CommandLine

def Blanks (cs : List Char) : Prop := ∀ c ∈ cs, isBlank c = true

structure IsEntry (entry : String) : Prop where
  ne_empty : entry ≠ ""
  trim_eq : trim entry.toList = entry.toList
  not_comment : entry.toList.head? ≠ some '#'

inductive IsLine : List Char → Option String → Prop
  | entry {before after : List Char} {entry : String} :
      Blanks before → Blanks after → IsEntry entry →
        IsLine (before ++ entry.toList ++ after) (some entry)
  | blank {cs : List Char} : Blanks cs → IsLine cs none
  | comment {before : List Char} (remark : List Char) :
      Blanks before → IsLine (before ++ '#' :: remark) none

/-- The text of a list file that holds these entries, of which the last line need not be ended. -/
inductive Holds : List Char → List String → Prop
  | last {line : List Char} {entry : Option String} :
      '\n' ∉ line → IsLine line entry → Holds line entry.toList
  | line {line ending rest : List Char} {entry : Option String} {entries : List String} :
      '\n' ∉ line → IsLine line entry → ending = ['\n'] ∨ ending = ['\r', '\n'] →
        Holds rest entries → Holds (line ++ ending ++ rest) (entry.toList ++ entries)

/-! ## What is read off a text -/

def lineEntry (line : List Char) : Option String :=
  if isListed (trim line) then some (String.ofList (trim line)) else none

def listed (cs : List Char) : List String := (lines cs).filterMap lineEntry

theorem listedPaths_eq (text base : String) :
    listedPaths text base = (listed text.toList).map (Path.join base) := by
  have hentry : listed text.toList =
      (((lines text.toList).map trim).filter isListed).map String.ofList := by
    rw [listed, List.filter_map, List.map_map, ← List.filterMap_eq_map, List.filterMap_filter]
    exact List.filterMap_congr fun line _ => rfl
  rw [listedPaths, hentry, List.map_map]
  rfl

theorem lines_eq (cs : List Char) : lines cs = cs.splitOn '\n' := by
  refine eq_splitOn rfl (fun cs => lines.eq_2 cs) (fun c cs hc => ?_) cs
  refine (lines.eq_3 c cs hc).trans ?_
  cases lines cs <;> rfl

theorem trim_eq (cs : List Char) : trim cs = trimmed isBlank cs := rfl

theorem listed_line {line : List Char} (h : '\n' ∉ line) :
    listed line = (lineEntry line).toList := by
  rw [listed, lines_eq, List.splitOn_eq_singleton h]
  cases h : lineEntry line <;> simp [h]

theorem listed_append {line : List Char} (h : '\n' ∉ line) (rest : List Char) :
    listed (line ++ '\n' :: rest) = (lineEntry line).toList ++ listed rest := by
  rw [← listed_line h, listed, listed, listed, lines_eq, lines_eq, lines_eq,
    List.splitOn_append_cons_self, List.filterMap_append]

/-- Blanks around a line change nothing, and so neither does a carriage return at its end. -/
theorem lineEntry_append {before after : List Char} (hbefore : Blanks before)
    (hafter : Blanks after) (line : List Char) :
    lineEntry (before ++ line ++ after) = lineEntry line := by
  rw [lineEntry, lineEntry, trim_eq, trim_eq, trimmed_append hbefore hafter]

theorem Blanks.nil : Blanks [] := by simp [Blanks]

theorem IsLine.lineEntry_eq {line : List Char} {entry : Option String} (h : IsLine line entry) :
    lineEntry line = entry := by
  cases h with
  | @entry before after entry hbefore hafter he =>
    have hlisted : isListed entry.toList = true := by
      simpa [isListed, he.not_comment] using he.ne_empty
    rw [lineEntry_append hbefore hafter, lineEntry, he.trim_eq, if_pos hlisted,
      String.ofList_toList]
  | blank hcs =>
    have hentry := lineEntry_append hcs Blanks.nil []
    rwa [List.append_nil, List.append_nil] at hentry
  | comment remark hbefore =>
    have hentry := lineEntry_append hbefore Blanks.nil ('#' :: remark)
    rw [List.append_nil] at hentry
    rw [hentry, lineEntry, trim_eq, trimmed_cons (by decide)]
    rfl

theorem isLine_lineEntry (line : List Char) : IsLine line (lineEntry line) := by
  obtain ⟨before, after, hbefore, hafter, heq⟩ := exists_around_trimmed isBlank line
  rw [← trim_eq] at heq
  by_cases hlisted : isListed (trim line) = true
  · have hentry : IsEntry (String.ofList (trim line)) := by
      simp only [isListed, ne_eq, Bool.and_eq_true, decide_eq_true_eq] at hlisted
      exact ⟨by simpa using hlisted.1, by simpa [trim_eq] using trimmed_trimmed line,
        by simpa using hlisted.2⟩
    rw [lineEntry, if_pos hlisted]
    conv => arg 1; rw [heq, ← String.toList_ofList (l := trim line)]
    exact .entry hbefore hafter hentry
  · rw [lineEntry, if_neg hlisted]
    cases htrim : trim line with
    | nil =>
      refine .blank fun c hc => ?_
      rw [heq, htrim, List.append_nil, List.mem_append] at hc
      exact hc.elim (hbefore c) (hafter c)
    | cons c remark =>
      have hcomment : c = '#' := by simpa [isListed, htrim] using hlisted
      conv => arg 1; rw [heq, htrim, hcomment, List.append_assoc, List.cons_append]
      exact .comment _ hbefore

theorem Holds.listed_eq {cs : List Char} {entries : List String} (h : Holds cs entries) :
    listed cs = entries := by
  induction h with
  | last hline hentry => rw [listed_line hline, hentry.lineEntry_eq]
  | @line line ending rest entry entries hline hentry hending _ ih =>
    rcases hending with rfl | rfl
    · rw [List.append_assoc, List.singleton_append, listed_append hline, hentry.lineEntry_eq, ih]
    · have hreturn : '\n' ∉ line ++ ['\r'] := by simpa using hline
      have hblank : Blanks ['\r'] := by simp [Blanks]; decide
      have htext : line ++ ['\r', '\n'] ++ rest = (line ++ ['\r']) ++ '\n' :: rest := by simp
      rw [htext, listed_append hreturn, ← List.nil_append (line ++ ['\r']), ← List.append_assoc,
        lineEntry_append Blanks.nil hblank, hentry.lineEntry_eq, ih]

theorem holds_listed (cs : List Char) : Holds cs (listed cs) := by
  by_cases hline : '\n' ∈ cs
  · obtain ⟨line, rest, rfl, hfirst⟩ := List.eq_append_cons_of_mem hline
    have hrest := holds_listed rest
    have htext : line ++ '\n' :: rest = line ++ ['\n'] ++ rest := by simp
    rw [listed_append hfirst, htext]
    exact .line hfirst (isLine_lineEntry line) (.inl rfl) hrest
  · rw [listed_line hline]
    exact .last hline (isLine_lineEntry cs)
termination_by cs.length

/-- What is read off a text is what the text holds. -/
theorem holds_iff {cs : List Char} {entries : List String} :
    Holds cs entries ↔ listed cs = entries :=
  ⟨Holds.listed_eq, fun h => h ▸ holds_listed cs⟩

/-! ## The paths of a run -/

section

variable {m : Type → Type} [Monad m] {read : String → m (Except ReadError String)}

theorem collectPaths_files (directory : String) (files : List String) (options : Options) :
    collectPaths read directory ⟨files, none, options⟩ =
      pure (.ok (files.map (Path.join directory))) := rfl

theorem collectPaths_list [LawfulMonad m] {directory list text base : String}
    {entries : List String} (hread : read (Path.join directory list) = pure (.ok text))
    (htext : Holds text.toList entries)
    (hbase : Path.parent? (Path.join directory list) = some base) (files : List String)
    (options : Options) :
    collectPaths read directory ⟨files, some list, options⟩ =
      pure (.ok (files.map (Path.join directory) ++ entries.map (Path.join base))) := by
  simp only [collectPaths, hread, pure_bind, givenPaths, listedPaths_eq, htext.listed_eq, hbase,
    Option.getD_some]

/-- The entries of a list that lies in the working directory are the files they would be as
arguments, after those that are given as arguments. An absolute entry stays as it is. -/
theorem collectPaths_listed [LawfulMonad m] {directory list text : String} {entries : List String}
    (options : Options) (hdirectory : Path.IsNormal directory)
    (hlist : Path.LiesIn directory (Path.join directory list))
    (hread : read (Path.join directory list) = pure (.ok text))
    (htext : Holds text.toList entries) :
    ∃ given listed : List String,
      collectPaths read directory ⟨entries, none, options⟩ = pure (.ok given) ∧
      collectPaths read directory ⟨[], some list, options⟩ = pure (.ok listed) ∧
      (∀ files, collectPaths read directory ⟨files, some list, options⟩ =
        pure (.ok (files.map (Path.join directory) ++ listed))) ∧
      given = entries.map (Path.join directory) ∧
      listed.map Path.components = given.map Path.components ∧
      (directory.toList <+: (Path.join directory list).toList → listed = given) ∧
      ∀ (i : Nat) (entry : String), entries[i]? = some entry → Path.isAbsolute entry = true →
        given[i]? = some entry ∧ listed[i]? = some entry := by
  obtain ⟨base, hbase, habs, hsegments, hsame⟩ := hlist.parent? hdirectory
  have hcollected := collectPaths_list hread htext hbase
  have hcomponents : ∀ entry, Path.components (Path.join base entry) =
      Path.components (Path.join directory entry) :=
    Path.components_join habs hdirectory.isAbsolute hsegments
  refine ⟨entries.map (Path.join directory), entries.map (Path.join base),
    collectPaths_files directory entries options, hcollected [] options,
    fun files => hcollected files options, rfl, ?_, ?_, ?_⟩
  · rw [List.map_map, List.map_map]
    exact List.map_congr_left fun entry _ => hcomponents entry
  · intro hprefix
    rw [hsame hprefix]
  · intro i entry hi hentry
    rw [List.getElem?_map, List.getElem?_map, hi, Option.map_some, Option.map_some,
      Path.join_of_isAbsolute hentry, Path.join_of_isAbsolute hentry]
    exact ⟨rfl, rfl⟩

/-- A list with a remark, both line ends, blanks around and within entries, and an absolute path. -/
theorem collectPaths_listed_mixed :
    let text := "# libraries\r\n  my lib.d.ts \r\n\n\t# more\nc#.d.ts\n/opt/dom.d.ts"
    let paths := ["/work/my lib.d.ts", "/work/c#.d.ts", "/opt/dom.d.ts"]
    let entries := ["my lib.d.ts", "c#.d.ts", "/opt/dom.d.ts"]
    let read : String → Id (Except ReadError String) := fun _ => .ok text
    Holds text.toList entries ∧
      collectPaths read "/work" ⟨entries, none, {}⟩ = .ok paths ∧
      collectPaths read "/work" ⟨[], some "files.txt", {}⟩ = .ok paths ∧
      collectPaths read "/work" ⟨["a.d.ts"], some "files.txt", {}⟩ =
        .ok ("/work/a.d.ts" :: paths) := by
  intro text paths entries read
  have hdirectory : Path.IsNormal "/work" := ⟨["work"], by simp [Path.IsFileName], by decide⟩
  have hlist : Path.LiesIn "/work" (Path.join "/work" "files.txt") :=
    Path.IsFileName.liesIn (by simp [Path.IsFileName]) hdirectory.isAbsolute
  have htext : Holds text.toList entries := holds_iff.mpr (by decide)
  have hread : read (Path.join "/work" "files.txt") = pure (.ok text) := rfl
  obtain ⟨given, listed, hgiven, hlisted, hboth, rfl, -, hsame, -⟩ :=
    collectPaths_listed {} hdirectory hlist hread htext
  obtain rfl := hsame (by decide)
  exact ⟨htext, hgiven, hlisted, hboth ["a.d.ts"]⟩

end

end AmbientCatalog.CommandLine
