import AmbientCatalog.Proofs.Registering
import Mathlib.Data.List.Induction
import Mathlib.Data.List.Nodup

/-!
# A registry is what was saved first

What a registry holds after a sequence of saves can be read off the sequence. Its names are the ids
of the saved nodes, each where it was saved first. Under a name stand the nodes with that id, each
record where it was saved first. Placeholders leave no trace in either list. One save adds at most
one name at the end of the names and one node at the end of the overloads of its id, so both
readings follow the sequence node by node.
-/

set_option autoImplicit false

namespace AmbientCatalog

theorem Node.record_id (node : Node) : node.record.id = node.id := by
  cases node
  rfl

namespace Registry

def sameRecord (node other : Node) : Bool := node.record = other.record

def firstNames (nodes : List Node) : List String :=
  ((nodes.filter (fun node => !node.isPlaceholder)).map Node.id).eraseDups

/-- Of the nodes with a given id that are no placeholders, the first with each record. -/
def firstOverloads (nodes : List Node) (name : String) : List Node :=
  (nodes.filter (fun node => !node.isPlaceholder && node.id = name)).eraseDupsBy sameRecord

theorem eraseDupsBy_concat (nodes : List Node) (node : Node) :
    (nodes ++ [node]).eraseDupsBy sameRecord = nodes.eraseDupsBy sameRecord ++
      (if node.record ∈ nodes.map Node.record then [] else [node]) := by
  -- the first node takes out the later ones with its record, so the rest is not simply the tail
  induction hn : nodes.length using Nat.strongRecOn generalizing nodes with
  | ind n ih =>
    cases nodes with
    | nil => rfl
    | cons first nodes =>
      have hshort : (nodes.filter (fun later => decide (sameRecord later first = false))).length
          < n := by
        have hle := List.length_filter_le (fun later => decide (sameRecord later first = false))
          nodes
        simp only [List.length_cons] at hn
        omega
      rw [List.cons_append, List.eraseDupsBy_cons, List.eraseDupsBy_cons, List.filter_append]
      by_cases hsame : node.record = first.record
      · simp [sameRecord, hsame]
      · have hkeep : [node].filter (fun later => decide (sameRecord later first = false)) =
            [node] := by
          simp [sameRecord, hsame]
        have hmem : node.record ∈ (nodes.filter
            (fun later => decide (sameRecord later first = false))).map Node.record ↔
            node.record ∈ (first :: nodes).map Node.record := by
          simp only [List.mem_map, List.mem_filter, List.mem_cons]
          constructor
          · rintro ⟨other, ⟨hother, -⟩, heq⟩
            exact ⟨other, .inr hother, heq⟩
          · rintro ⟨other, rfl | hother, heq⟩
            · exact absurd heq.symm hsame
            · exact ⟨other, ⟨hother, by simpa [sameRecord, heq] using hsame⟩, heq⟩
        rw [hkeep, ih _ hshort _ rfl, List.cons_append]
        simp only [hmem]

theorem mem_records_eraseDupsBy (nodes : List Node) (record : Record) :
    record ∈ (nodes.eraseDupsBy sameRecord).map Node.record ↔ record ∈ nodes.map Node.record := by
  induction nodes using List.reverseRecOn with
  | nil => rfl
  | append_singleton nodes node ih =>
    rw [eraseDupsBy_concat, List.map_append, List.map_append, List.mem_append, List.mem_append, ih]
    split_ifs with h
    · constructor
      · rintro (hold | hnew)
        · exact .inl hold
        · exact absurd hnew List.not_mem_nil
      · rintro (hold | hnew)
        · exact .inl hold
        · obtain rfl : record = node.record := by simpa using hnew
          exact .inl h
    · rfl

theorem names_cons (name : String) (kept : List Overload) (table : List (String × List Overload)) :
    names ⟨(name, kept) :: table⟩ = name :: names ⟨table⟩ := rfl

theorem names_append (name : String) (overload : Overload) (table : List (String × List Overload)) :
    names ⟨append name overload table⟩ =
      if name ∈ names ⟨table⟩ then names ⟨table⟩ else names ⟨table⟩ ++ [name] := by
  induction table with
  | nil => rfl
  | cons entry table ih =>
    obtain ⟨key, kept⟩ := entry
    by_cases hkey : key = name
    · simp [append, hkey, names_cons]
    · rw [append, if_neg hkey, names_cons, names_cons, ih]
      simp only [List.mem_cons, Ne.symm hkey, false_or]
      split_ifs
      · rfl
      · rw [List.cons_append]

theorem names_save (r : Registry) (node : Node) :
    (r.save node).names =
      if node.isPlaceholder = true ∨ node.id ∈ r.names then r.names else r.names ++ [node.id] := by
  rw [save_eq]
  cases ha : r.admits node with
  | false =>
    have hold : node.isPlaceholder = true ∨ node.id ∈ r.names :=
      ((r.admits_eq_false_iff node).mp ha).imp_right mem_names_of_record
    simp [hold]
  | true =>
    simp only [if_true, names_append, plain_of_admits ha, Bool.false_eq_true, false_or]

theorem overloads_save (r : Registry) (node : Node) (name : String) :
    (r.save node).overloads name =
      if r.admits node = true ∧ node.id = name then r.overloads name ++ [node]
      else r.overloads name := by
  rw [overloads_eq, overloads_eq, kept_save]
  split_ifs <;> simp

/-- The names of a registry are the first names of what was saved. -/
theorem names_saveAll (nodes : List Node) :
    (Registry.empty.saveAll nodes).names = firstNames nodes := by
  induction nodes using List.reverseRecOn with
  | nil => rfl
  | append_singleton nodes node ih =>
    rw [saveAll_concat, names_save, ih]
    cases hp : node.isPlaceholder with
    | true => simp [firstNames, hp]
    | false =>
      have hmem : node.id ∈ firstNames nodes ↔
          node.id ∈ (nodes.filter (fun other => !other.isPlaceholder)).map Node.id :=
        List.mem_eraseDups
      have hconcat : firstNames (nodes ++ [node]) = firstNames nodes ++
          ([node.id].removeAll
            ((nodes.filter (fun other => !other.isPlaceholder)).map Node.id)).eraseDups := by
        simp [firstNames, hp, List.eraseDups_append]
      rw [hconcat]
      simp only [Bool.false_eq_true, false_or, hmem]
      split_ifs with h
      · simp [List.removeAll, h]
      · simp [List.removeAll, h, List.eraseDups_cons]

theorem nodup_names_saveAll (nodes : List Node) :
    (Registry.empty.saveAll nodes).names.Nodup := by
  induction nodes using List.reverseRecOn with
  | nil => exact List.nodup_nil
  | append_singleton nodes node ih =>
    rw [saveAll_concat, names_save]
    split_ifs with h
    · exact ih
    · exact List.nodup_append'.mpr ⟨ih, List.nodup_singleton _, by simpa using (not_or.mp h).2⟩

/-- The overloads of a name are the first overloads of what was saved. -/
theorem overloads_saveAll (nodes : List Node) (name : String) :
    (Registry.empty.saveAll nodes).overloads name = firstOverloads nodes name := by
  induction nodes using List.reverseRecOn with
  | nil => rfl
  | append_singleton nodes node ih =>
    rw [saveAll_concat, overloads_save]
    by_cases hoffered : node.isPlaceholder = false ∧ node.id = name
    · obtain ⟨hp, rfl⟩ := hoffered
      -- by induction the records kept so far are those of the nodes before, repeated or not
      have hcovered : (Registry.empty.saveAll nodes).admits node = true ↔ node.record ∉
          (nodes.filter (fun other => !other.isPlaceholder && other.id = node.id)).map
            Node.record := by
        rw [← Bool.not_eq_false, admits_eq_false_iff, keptRecords_saveAll, ih, firstOverloads,
          mem_records_eraseDupsBy]
        simp [hp]
      have hconcat : firstOverloads (nodes ++ [node]) node.id = firstOverloads nodes node.id ++
          (if node.record ∈ (nodes.filter
            (fun other => !other.isPlaceholder && other.id = node.id)).map Node.record
          then [] else [node]) := by
        rw [firstOverloads, List.filter_append, List.filter_cons_of_pos (by simp [hp]),
          List.filter_nil, eraseDupsBy_concat]
        rfl
      rw [hconcat, ih]
      simp only [hcovered, and_true, ite_not]
      split_ifs
      · rw [List.append_nil]
      · rfl
    · have hskipped : ¬((Registry.empty.saveAll nodes).admits node = true ∧ node.id = name) := by
        rintro ⟨ha, hname⟩
        exact hoffered ⟨plain_of_admits ha, hname⟩
      have hconcat : firstOverloads (nodes ++ [node]) name = firstOverloads nodes name := by
        rw [firstOverloads, List.filter_append, List.filter_cons_of_neg, List.filter_nil,
          List.append_nil]
        · rfl
        · simpa using hoffered
      rw [if_neg hskipped, hconcat, ih]

/-- A save adds a node exactly if the node is no placeholder and none before it had its record. -/
theorem admits_saveAll_iff (nodes : List Node) (node : Node) :
    (Registry.empty.saveAll nodes).admits node = true ↔
      node.isPlaceholder = false ∧ ∀ earlier ∈ nodes, earlier.record ≠ node.record := by
  have hrefused : (Registry.empty.saveAll nodes).admits node = false ↔
      node.isPlaceholder = true ∨ ∃ earlier ∈ nodes, earlier.isPlaceholder = false ∧
        earlier.id = node.id ∧ earlier.record = node.record := by
    rw [admits_eq_false_iff, keptRecords_saveAll, mem_records_saveAll]
  rw [← Bool.not_eq_false, hrefused]
  constructor
  · intro h
    have hp : node.isPlaceholder = false := by simpa using mt Or.inl h
    refine ⟨hp, fun earlier hearlier heq => h (.inr ⟨earlier, hearlier, ?_, ?_, heq⟩)⟩
    · -- the record tells the id, and the id tells a placeholder
      have hid : earlier.id = node.id := by rw [← earlier.record_id, heq, node.record_id]
      rw [Node.isPlaceholder, hid]
      exact hp
    · rw [← earlier.record_id, heq, node.record_id]
  · rintro ⟨hp, hnew⟩ (hholder | ⟨earlier, hearlier, -, -, heq⟩)
    · simp [hp] at hholder
    · exact hnew earlier hearlier heq

theorem lookup_eq_none_iff (r : Registry) (name : String) :
    r.table.lookup name = none ↔ name ∉ r.names := by
  rw [List.lookup_eq_none_iff, names, List.mem_map]
  constructor
  · rintro h ⟨entry, hentry, rfl⟩
    simpa using h entry hentry
  · intro h entry hentry
    simpa using fun heq : name = entry.1 => h ⟨entry, hentry, heq.symm⟩

theorem get?_eq (r : Registry) (name : String) :
    r.get? name = if name ∈ r.names then some (r.overloads name) else none := by
  split_ifs with h
  · cases hl : r.table.lookup name with
    | none => exact absurd h ((r.lookup_eq_none_iff name).mp hl)
    | some kept => simp [overloads, get?, hl]
  · rw [get?, (r.lookup_eq_none_iff name).mpr h]
    rfl

theorem contains_iff (r : Registry) (name : String) : r.contains name = true ↔ name ∈ r.names := by
  rw [← not_iff_not, ← r.lookup_eq_none_iff, contains, Bool.not_eq_true, Option.isSome_eq_false_iff,
    Option.isNone_iff_eq_none]

theorem table_eq {r : Registry} (h : r.names.Nodup) :
    r.table = r.names.map (fun name => (name, r.kept name)) := by
  obtain ⟨table⟩ := r
  induction table with
  | nil => rfl
  | cons entry table ih =>
    obtain ⟨key, overloads⟩ := entry
    obtain ⟨hnew, hrest⟩ := List.nodup_cons.mp h
    have hfirst : kept ⟨(key, overloads) :: table⟩ key = overloads := by simp [kept]
    have hlater : ∀ name ∈ names ⟨table⟩,
        kept ⟨(key, overloads) :: table⟩ name = kept ⟨table⟩ name := by
      intro name hname
      have hne : (name == key) = false := by
        simpa using fun heq : name = key => hnew (heq ▸ hname)
      simp [kept, List.lookup_cons, hne]
    show (key, overloads) :: table = (key, kept ⟨(key, overloads) :: table⟩ key) ::
      (names ⟨table⟩).map (fun name => (name, kept ⟨(key, overloads) :: table⟩ name))
    rw [hfirst, List.map_congr_left (fun name hname => by rw [hlater name hname])]
    exact congrArg _ (ih hrest)

/-- The written catalog reads the records that were made when the nodes were saved, and these are
the records of the nodes. -/
theorem records_saveAll (nodes : List Node) :
    (Registry.empty.saveAll nodes).records = (Registry.empty.saveAll nodes).names.map
      (fun name => (name, ((Registry.empty.saveAll nodes).overloads name).map Node.record)) := by
  rw [records, table_eq (nodup_names_saveAll nodes), List.map_map]
  refine List.map_congr_left fun name _ => ?_
  rw [← keptRecords_saveAll]
  rfl

/-- Names, overloads and answers of a registry are those of the saved nodes, each where its id or
its record came first. The records kept beside the nodes are theirs, and no entry is left empty by a
save that adds nothing. -/
theorem saveAll_first (nodes : List Node) :
    (Registry.empty.saveAll nodes).names = firstNames nodes ∧
    (∀ name, (Registry.empty.saveAll nodes).get? name =
      if name ∈ firstNames nodes then some (firstOverloads nodes name) else none) ∧
    (Registry.empty.saveAll nodes).records =
      (firstNames nodes).map (fun name => (name, (firstOverloads nodes name).map Node.record)) ∧
    (Registry.empty.saveAll nodes).records = (Registry.empty.saveAll nodes).names.map
      (fun name => (name, ((Registry.empty.saveAll nodes).overloads name).map Node.record)) ∧
    (∀ before node, (Registry.empty.saveAll before).admits node = true ↔
      node.isPlaceholder = false ∧ ∀ earlier ∈ before, earlier.record ≠ node.record) ∧
    (∀ before node, (Registry.empty.saveAll before).admits node = false →
      (Registry.empty.saveAll before).save node = Registry.empty.saveAll before) ∧
    (∀ name, (Registry.empty.saveAll nodes).contains name = true ↔ name ∈ firstNames nodes) ∧
    (∀ name, (Registry.empty.saveAll nodes).overloadCount name =
      (firstOverloads nodes name).length) ∧
    (Registry.empty.saveAll nodes).size = (firstNames nodes).length ∧
    (Registry.empty.saveAll nodes).isEmpty = (firstNames nodes).isEmpty ∧
    (∀ entry ∈ (Registry.empty.saveAll nodes).table, entry.2 ≠ [] ∧
      ∀ overload ∈ entry.2, overload.record = overload.node.record) ∧
    (Registry.empty.saveAll nodes).saveAll nodes = Registry.empty.saveAll nodes := by
  have hnames := names_saveAll nodes
  refine ⟨hnames, ?_, ?_, records_saveAll nodes, admits_saveAll_iff, ?_, ?_, ?_, ?_, ?_, ?_, ?_⟩
  · intro name
    rw [get?_eq, hnames, overloads_saveAll]
  · rw [records_saveAll, hnames]
    simp [overloads_saveAll]
  · intro before node hrefused
    rw [save_eq, if_neg (by simp [hrefused])]
  · intro name
    rw [contains_iff, hnames]
  · intro name
    rw [← overloads_saveAll, overloads_eq, List.length_map, overloadCount]
  · rw [← hnames, size, names, List.length_map]
  · rw [← hnames, isEmpty, names, List.isEmpty_map]
  · intro entry hentry
    have hproper := saveAll_proper nodes entry hentry
    exact ⟨hproper.nonempty, hproper.cached⟩
  · have hrepeats : Repeats nodes (nodes ++ nodes) :=
      (Repeats.refl nodes).append_old (fun node hnode => hnode)
    have hagain := Registry.empty.saveAll_repeats hrepeats
    simpa [saveAll, List.foldl_append] using hagain

end Registry

end AmbientCatalog
