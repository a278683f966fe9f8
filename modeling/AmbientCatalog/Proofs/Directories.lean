import AmbientCatalog.Path
import Mathlib.Data.List.Infix
import Mathlib.Tactic.SplitIfs

/-!
# Paths and their directories

A path is compared by its components, not by its text: slashes in a row and single dots between them
do not count. The parent of an absolute path has the components of the path but the last one, and as
its text it has the longest part of the path's text with these components that ends in a name. So a
directory in normal form is found again, letter by letter, from every path that continues its text
by one name.
-/

set_option autoImplicit false

namespace AmbientCatalog

/-- Any function that starts a new part at a separator, and otherwise adds a character to the first
part of what follows, cuts a text at the separators. -/
theorem eq_splitOn {separator : Char} {f : List Char → List (List Char)} (hnil : f [] = [[]])
    (hseparator : ∀ cs, f (separator :: cs) = [] :: f cs)
    (hcons : ∀ c cs, c ≠ separator → f (c :: cs) =
      match f cs with
      | [] => [[c]]
      | part :: parts => (c :: part) :: parts) (cs : List Char) :
    f cs = cs.splitOn separator := by
  induction cs with
  | nil => exact hnil
  | cons c cs ih =>
    rw [List.splitOn_cons_eq_if_modifyHead, ← ih]
    split_ifs with hc
    · rw [beq_iff_eq.mp hc, hseparator]
    · rw [hcons c cs (by simpa using hc)]
      cases hcs : f cs with
      | nil => simp [ih] at hcs
      | cons part parts => rfl

namespace Path

/-- What a path is compared by: the root of an absolute path, a dot that begins a relative one, and
the segments. -/
def components (path : String) : List String :=
  (if isAbsolute path then ["/"]
    else if (splitSlashes path.toList).head? = some ['.'] then ["."] else []) ++ segments path

def IsFileName (name : String) : Prop :=
  name ≠ "" ∧ name ≠ "." ∧ name ≠ ".." ∧ '/' ∉ name.toList

def IsNormal (path : String) : Prop :=
  ∃ names : List String, (∀ name ∈ names, IsFileName name) ∧ path = "/" ++ "/".intercalate names

def LiesIn (directory path : String) : Prop :=
  isAbsolute path = true ∧ ∃ name, IsFileName name ∧ segments path = segments directory ++ [name]

def segmentsOf (cs : List Char) : List String :=
  ((splitSlashes cs).map String.ofList).filter (fun s => s ≠ "" && s ≠ ".")

theorem splitSlashes_eq (cs : List Char) : splitSlashes cs = cs.splitOn '/' := by
  refine eq_splitOn rfl (fun cs => splitSlashes.eq_2 cs) (fun c cs hc => ?_) cs
  refine (splitSlashes.eq_3 c cs hc).trans ?_
  cases splitSlashes cs <;> rfl

theorem segments_eq (path : String) : segments path = segmentsOf path.toList := rfl

@[simp] theorem segmentsOf_nil : segmentsOf [] = [] := rfl

theorem segmentsOf_append (xs ys : List Char) :
    segmentsOf (xs ++ '/' :: ys) = segmentsOf xs ++ segmentsOf ys := by
  simp only [segmentsOf, splitSlashes_eq, List.splitOn_append_cons_self, List.map_append,
    List.filter_append]

def Counts (segment : List Char) : Prop := segment ≠ [] ∧ segment ≠ ['.']

theorem Counts.reverse {segment : List Char} (h : Counts segment) : Counts segment.reverse :=
  ⟨by simpa using h.1, fun he => h.2 (by simpa using congrArg List.reverse he)⟩

theorem segmentsOf_counts {segment : List Char} (hs : '/' ∉ segment) (h : Counts segment) :
    segmentsOf segment = [String.ofList segment] := by
  have hempty : String.ofList segment ≠ "" :=
    fun he => h.1 (by simpa using congrArg String.toList he)
  have hdot : String.ofList segment ≠ "." :=
    fun he => h.2 (by simpa using congrArg String.toList he)
  simp [segmentsOf, splitSlashes_eq, List.splitOn_eq_singleton hs, hempty, hdot]

theorem segmentsOf_not_counts {segment : List Char} (h : ¬Counts segment) :
    segmentsOf segment = [] := by
  by_cases hnil : segment = []
  · rw [hnil]
    rfl
  · have hdot : segment = ['.'] := by
      by_contra hdot
      exact h ⟨hnil, hdot⟩
    rw [hdot]
    rfl

/-! Paths are trimmed backwards: what is kept, read backwards, is the root alone or begins with a
segment that counts. -/

/-- A text, written backwards, at whose end nothing can be dropped. -/
def Settled (cs : List Char) : Prop :=
  cs = ['/'] ∨ ∃ last front, '/' ∉ last ∧ Counts last ∧ cs = last ++ '/' :: front

theorem trimEnd_slash {front : List Char} (h : front ≠ []) :
    trimEnd ('/' :: front) = trimEnd front := by
  rw [trimEnd, if_neg h]

theorem trimEnd_not_counts {last : List Char} (h : ¬Counts last) (front : List Char) :
    trimEnd (last ++ '/' :: front) = trimEnd ('/' :: front) := by
  by_cases hnil : last = []
  · rw [hnil, List.nil_append]
  · have hdot : last = ['.'] := by
      by_contra hdot
      exact h ⟨hnil, hdot⟩
    rw [hdot, List.singleton_append, trimEnd, trimEnd]

theorem Settled.trimEnd {cs : List Char} (h : Settled cs) : trimEnd cs = cs := by
  rcases h with rfl | ⟨last, front, hs, hc, rfl⟩
  · rfl
  · cases last with
    | nil => exact absurd rfl hc.1
    | cons c last =>
      rw [List.cons_append, Path.trimEnd]
      · rintro rfl
        simp at hs
      · rintro rest rfl hrest
        cases last with
        | nil => exact hc.2 rfl
        | cons d last => simp_all

theorem trimEnd_spec {cs : List Char} (h : cs.getLast? = some '/') :
    trimEnd cs <:+ cs ∧ segmentsOf (trimEnd cs).reverse = segmentsOf cs.reverse ∧
      Settled (trimEnd cs) := by
  obtain ⟨last, front, rfl, hs⟩ := List.eq_append_cons_of_mem (List.mem_of_getLast? h)
  by_cases hc : Counts last
  · have hsettled : Settled (last ++ '/' :: front) := .inr ⟨last, front, hs, hc, rfl⟩
    rw [hsettled.trimEnd]
    exact ⟨List.suffix_rfl, rfl, hsettled⟩
  · rw [trimEnd_not_counts hc]
    have hdropped : ¬Counts last.reverse := fun hr => hc (by simpa using hr.reverse)
    have hsegments : segmentsOf (last ++ '/' :: front).reverse = segmentsOf front.reverse := by
      rw [List.reverse_append, List.reverse_cons, List.append_assoc, List.singleton_append,
        segmentsOf_append, segmentsOf_not_counts hdropped, List.append_nil]
    by_cases hfront : front = []
    · rw [hsegments, hfront]
      exact ⟨List.suffix_append _ _, rfl, .inl rfl⟩
    · have hlast : front.getLast? = some '/' := by
        rwa [List.getLast?_append_of_ne_nil _ (List.cons_ne_nil _ _),
          List.getLast?_cons_of_ne_nil hfront] at h
      obtain ⟨hsuffix, hseg, hsettled⟩ := trimEnd_spec hlast
      rw [trimEnd_slash hfront]
      exact ⟨hsuffix.trans ((List.suffix_cons _ _).trans (List.suffix_append _ _)),
        hseg.trans hsegments.symm, hsettled⟩
termination_by cs.length
decreasing_by grind

theorem getLast?_reverse_of_isAbsolute {path : String} (h : isAbsolute path = true) :
    path.toList.reverse.getLast? = some '/' := by
  simpa [isAbsolute] using h

theorem isAbsolute_of_prefix {cs : List Char} {path : String} (hne : cs ≠ [])
    (h : cs <+: path.toList) (hpath : isAbsolute path = true) :
    isAbsolute (String.ofList cs) = true := by
  obtain ⟨rest, hrest⟩ := h
  cases cs with
  | nil => exact absurd rfl hne
  | cons c cs => simpa [isAbsolute, ← hrest] using hpath

theorem Settled.ne_nil {cs : List Char} (h : Settled cs) : cs ≠ [] := by
  rcases h with rfl | ⟨last, front, -, -, rfl⟩ <;> simp

/-- The parent of an absolute path has its segments but the last one. -/
theorem parent?_spec {path : String} (h : isAbsolute path = true) {names : List String}
    {name : String} (hsegments : segments path = names ++ [name]) :
    ∃ parent, parent? path = some parent ∧ isAbsolute parent = true ∧ segments parent = names ∧
      parent.toList <+: path.toList ∧ Settled parent.toList.reverse := by
  obtain ⟨hsuffix, hseg, hsettled⟩ := trimEnd_spec (getLast?_reverse_of_isAbsolute h)
  rw [List.reverse_reverse, ← segments_eq, hsegments] at hseg
  rcases hsettled with hroot | ⟨last, front, hs, hc, htrim⟩
  · -- the root has no segments at all
    rw [hroot] at hseg
    simp [segmentsOf, splitSlashes] at hseg
  · rw [htrim] at hsuffix hseg
    have hslash : ('/' :: front).getLast? = some '/' := by
      obtain ⟨dropped, hdropped⟩ := hsuffix
      have hlast := getLast?_reverse_of_isAbsolute h
      rwa [← hdropped, ← List.append_assoc,
        List.getLast?_append_of_ne_nil _ (List.cons_ne_nil _ _)] at hlast
    obtain ⟨hsuffix', hseg', hsettled'⟩ := trimEnd_spec hslash
    have hparent : parent? path = some (String.ofList (trimEnd ('/' :: front)).reverse) := by
      have hback : (last ++ '/' :: front).dropWhile (· ≠ '/') = '/' :: front := by
        rw [List.dropWhile_append_of_pos (fun c hm => by
          simpa using fun heq : c = '/' => hs (heq ▸ hm)), List.dropWhile_cons_of_neg (by simp)]
      rw [parent?, htrim]
      split
      case h_1 heq => simp at heq
      case h_2 heq =>
        exact absurd ((List.append_eq_singleton_iff.mp heq).resolve_right (by simp)).1 hc.1
      case h_3 => rw [hback]
    have hnames : segmentsOf front.reverse = names := by
      rw [List.reverse_append, List.reverse_cons, List.append_assoc, List.singleton_append,
        segmentsOf_append, segmentsOf_counts (by simpa using hs) hc.reverse] at hseg
      exact (List.append_inj' hseg rfl).1
    have hprefix : (trimEnd ('/' :: front)).reverse <+: path.toList := by
      rw [← List.reverse_suffix, List.reverse_reverse]
      exact hsuffix'.trans ((List.suffix_append _ _).trans hsuffix)
    refine ⟨_, hparent, isAbsolute_of_prefix (by simpa using hsettled'.ne_nil) hprefix h, ?_,
      by simpa using hprefix, by simpa using hsettled'⟩
    rw [segments_eq, String.toList_ofList, hseg', List.reverse_cons, ← hnames]
    simpa using segmentsOf_append front.reverse []

theorem segmentsOf_length_cons (c : Char) (cs : List Char) :
    (segmentsOf cs.reverse).length ≤ (segmentsOf (c :: cs).reverse).length := by
  rw [List.reverse_cons]
  by_cases hc : c = '/'
  · rw [hc, segmentsOf_append, segmentsOf_nil, List.append_nil]
  · have hlast : ∀ last, '/' ∉ last →
        (segmentsOf last).length ≤ (segmentsOf (last ++ [c])).length := by
      intro last hs
      by_cases hcounts : Counts last
      · have hgrown : Counts (last ++ [c]) :=
          ⟨by simp, fun he => hcounts.1 (by simpa using congrArg List.length he)⟩
        rw [segmentsOf_counts hs hcounts,
          segmentsOf_counts (by simpa [hs] using Ne.symm hc) hgrown]
        exact le_rfl
      · rw [segmentsOf_not_counts hcounts]
        exact Nat.zero_le _
    by_cases hs : '/' ∈ cs
    · obtain ⟨last, front, rfl, hs'⟩ := List.eq_append_cons_of_mem hs
      rw [List.reverse_append, List.reverse_cons, List.append_assoc, List.append_assoc,
        List.singleton_append, List.cons_append, segmentsOf_append, segmentsOf_append,
        List.length_append, List.length_append]
      exact Nat.add_le_add_left (hlast _ (by simpa using hs')) _
    · exact hlast _ (by simpa using hs)

theorem segmentsOf_length_le {cs cs' : List Char} (h : cs <:+ cs') :
    (segmentsOf cs.reverse).length ≤ (segmentsOf cs'.reverse).length := by
  obtain ⟨rest, rfl⟩ := h
  induction rest with
  | nil => exact le_rfl
  | cons c rest ih => exact ih.trans (segmentsOf_length_cons c _)

/-- Of the texts with given segments, a settled one does not properly begin with another. -/
theorem Settled.eq_of_suffix {cs cs' : List Char} (hsettled : Settled cs') (hne : cs ≠ [])
    (h : cs <:+ cs') (hsegments : segmentsOf cs.reverse = segmentsOf cs'.reverse) : cs = cs' := by
  obtain ⟨rest, hrest⟩ := h
  rcases hsettled with rfl | ⟨last, front, hs, hc, rfl⟩
  · exact ((List.append_eq_singleton_iff.mp hrest).resolve_right (fun hr => hne hr.2)).2
  · have hreverse : ∀ last : List Char, (last ++ '/' :: front).reverse =
        front.reverse ++ '/' :: last.reverse := by simp
    rw [hreverse, segmentsOf_append, segmentsOf_counts (by simpa using hs) hc.reverse] at hsegments
    rcases List.append_eq_append_iff.mp hrest with ⟨last', rfl, rfl⟩ | ⟨dropped, -, hfront⟩
    · -- what `cs` has of the last segment is all of it, as it names the same
      rw [hreverse, segmentsOf_append, List.append_cancel_left_eq] at hsegments
      have hcounts : Counts last'.reverse := by
        by_contra hcounts
        simp [segmentsOf_not_counts hcounts] at hsegments
      rw [segmentsOf_counts (by simpa using fun hm => hs (List.mem_append_right _ hm)) hcounts]
        at hsegments
      have hnil : rest = [] := by
        simpa using congrArg String.length (List.singleton_inj.mp hsegments)
      rw [hnil, List.nil_append]
    · -- `cs` would have no part of the last segment, and so fewer segments
      have hle := segmentsOf_length_le (show cs <:+ '/' :: front from ⟨dropped, hfront.symm⟩)
      rw [hsegments, List.reverse_cons, segmentsOf_append, List.length_append,
        List.length_append] at hle
      exact absurd hle (by simp)

theorem IsNormal.isAbsolute {path : String} (h : IsNormal path) : isAbsolute path = true := by
  obtain ⟨names, -, rfl⟩ := h
  simp [Path.isAbsolute]

theorem IsFileName.counts {name : String} (h : IsFileName name) : Counts name.toList :=
  ⟨fun he => h.1 (by simpa using he), fun he => h.2.1 (String.toList_inj.mp he)⟩

theorem IsNormal.settled {path : String} (h : IsNormal path) : Settled path.toList.reverse := by
  obtain ⟨names, hnames, rfl⟩ := h
  rcases names.eq_nil_or_concat with rfl | ⟨front, last, rfl⟩
  · exact .inl rfl
  · have hlast : IsFileName last := hnames last (by simp)
    have htext : ∃ before : List Char, ("/" ++ "/".intercalate (front ++ [last])).toList =
        before ++ '/' :: last.toList := by
      by_cases hfront : front = []
      · exact ⟨[], by simp [hfront]⟩
      · refine ⟨'/' :: ("/".intercalate front).toList, ?_⟩
        rw [String.intercalate_append_of_ne_nil hfront (List.cons_ne_nil last [])]
        simp
    obtain ⟨before, hbefore⟩ := htext
    refine .inr ⟨last.toList.reverse, before.reverse, by simpa using hlast.2.2.2,
      hlast.counts.reverse, ?_⟩
    simpa using congrArg List.reverse hbefore

/-- The parent of what lies in a directory is the directory, and letter by letter where the path
continues the directory's text. -/
theorem LiesIn.parent? {directory path : String} (h : LiesIn directory path)
    (hdirectory : IsNormal directory) :
    ∃ parent, Path.parent? path = some parent ∧ isAbsolute parent = true ∧
      segments parent = segments directory ∧
      (directory.toList <+: path.toList → parent = directory) := by
  obtain ⟨habs, name, -, hsegments⟩ := h
  obtain ⟨parent, hparent, hparentAbs, hnames, hprefix, hsettled⟩ := parent?_spec habs hsegments
  refine ⟨parent, hparent, hparentAbs, hnames, fun hdir => ?_⟩
  have hreverse : segmentsOf parent.toList.reverse.reverse =
      segmentsOf directory.toList.reverse.reverse := by
    simpa [segments_eq] using hnames
  have heq : parent.toList.reverse = directory.toList.reverse := by
    rcases List.prefix_or_prefix_of_prefix hprefix hdir with hle | hle
    · exact hdirectory.settled.eq_of_suffix hsettled.ne_nil (by simpa using hle) hreverse
    · exact (hsettled.eq_of_suffix hdirectory.settled.ne_nil (by simpa using hle)
        hreverse.symm).symm
  exact String.toList_inj.mp (List.reverse_inj.mp heq)

/-! ## Joining -/

theorem isAbsolute_join {base : String} (h : isAbsolute base = true) (path : String) :
    isAbsolute (join base path) = true := by
  have hfront : ∀ rest : String, isAbsolute (base ++ rest) = true := by
    intro rest
    cases hbase : base.toList with
    | nil => simp [isAbsolute, hbase] at h
    | cons c cs => simpa [isAbsolute, hbase] using h
  rw [join]
  split_ifs with hpath hbase
  · exact hpath
  · exact hfront path
  · rw [String.append_assoc]
    exact hfront _

theorem segments_join {base path : String} (h : isAbsolute base = true)
    (hpath : isAbsolute path = false) :
    segments (join base path) = segments base ++ segments path := by
  have hne : base ≠ "" := by
    rintro rfl
    simp [isAbsolute] at h
  simp only [join, hpath, Bool.false_eq_true, if_false, hne, decide_false, Bool.false_or,
    decide_eq_true_eq]
  split_ifs with hend
  · obtain ⟨front, hfront⟩ := List.getLast?_eq_some_iff.mp hend
    simp only [segments_eq, String.toList_append, hfront, List.append_assoc, List.singleton_append,
      segmentsOf_append, segmentsOf_nil, List.append_nil]
  · simp only [segments_eq, String.toList_append, List.append_assoc]
    exact segmentsOf_append _ _

theorem join_of_isAbsolute {path : String} (h : isAbsolute path = true) (base : String) :
    join base path = path := by
  rw [join, if_pos h]

/-- Joined to texts of one directory, a path has the same components. -/
theorem components_join {base base' : String} (h : isAbsolute base = true)
    (h' : isAbsolute base' = true) (hsegments : segments base = segments base') (path : String) :
    components (join base path) = components (join base' path) := by
  by_cases hpath : isAbsolute path = true
  · rw [join_of_isAbsolute hpath, join_of_isAbsolute hpath]
  · rw [Bool.not_eq_true] at hpath
    rw [components, components, isAbsolute_join h, isAbsolute_join h', segments_join h hpath,
      segments_join h' hpath, hsegments, if_pos rfl, if_pos rfl]

theorem IsFileName.liesIn {name : String} (h : IsFileName name) {directory : String}
    (hdirectory : isAbsolute directory = true) : LiesIn directory (join directory name) := by
  have hrelative : isAbsolute name = false := by
    rw [isAbsolute, decide_eq_false_iff_not]
    exact fun hhead => h.2.2.2 (List.mem_of_head? hhead)
  refine ⟨isAbsolute_join hdirectory name, name, h, ?_⟩
  rw [segments_join hdirectory hrelative, segments_eq name, segmentsOf_counts h.2.2.2 h.counts,
    String.ofList_toList]

end Path

end AmbientCatalog
