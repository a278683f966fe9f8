import AmbientCatalog.Registry
import Mathlib.Data.List.Induction
import Mathlib.Tactic.SplitIfs

/-!
# What a registry keeps

A node is kept unless it is a placeholder or repeats a record under its id. The entry that a save
opens is never left empty, because it is new only if there is nothing to repeat, and the record kept
beside a node stays the record of that node. So the names and records of a registry are those of the
saved nodes, and saving a node again changes nothing. A list of nodes that only repeats earlier
nodes of a shorter one therefore fills a registry in the same way.
-/

set_option autoImplicit false

namespace AmbientCatalog

namespace Registry

def keptRecords (r : Registry) (name : String) : List Record := (r.kept name).map Overload.record

def append (name : String) (overload : Overload) :
    List (String × List Overload) → List (String × List Overload)
  | [] => [(name, [overload])]
  | (key, kept) :: rest =>
    if key = name then (key, kept ++ [overload]) :: rest
    else (key, kept) :: append name overload rest

section Table

variable (name : String) (overload : Overload) (table : List (String × List Overload))

theorem push_openEntry :
    push name overload (openEntry name table) = append name overload table := by
  induction table with
  | nil => simp [openEntry, push, append]
  | cons entry table ih =>
    obtain ⟨key, kept⟩ := entry
    by_cases hkey : key = name
    · simp [openEntry, push, append, hkey]
    · simp [openEntry, push, append, hkey, ih]

theorem openEntry_of_mem (h : name ∈ names ⟨table⟩) : openEntry name table = table := by
  induction table with
  | nil => exact absurd h List.not_mem_nil
  | cons entry table ih =>
    obtain ⟨key, kept⟩ := entry
    by_cases hkey : key = name
    · simp [openEntry, hkey]
    · have hrest : name ∈ names ⟨table⟩ := (List.mem_cons.mp h).resolve_left (Ne.symm hkey)
      simp [openEntry, hkey, ih hrest]

theorem kept_openEntry (other : String) :
    kept ⟨openEntry name table⟩ other = kept ⟨table⟩ other := by
  induction table with
  | nil =>
    by_cases h : other = name
    · simp [openEntry, kept, h]
    · simp [openEntry, kept, List.lookup_cons, (by simpa using h : (other == name) = false)]
  | cons entry table ih =>
    obtain ⟨key, overloads⟩ := entry
    simp only [kept] at ih
    by_cases hkey : key = name
    · simp [openEntry, hkey]
    · simp only [openEntry, if_neg hkey, kept, List.lookup_cons]
      split
      · rfl
      · exact ih

theorem lookup_append (other : String) :
    (append name overload table).lookup other =
      if other = name then some ((table.lookup other).getD [] ++ [overload])
      else table.lookup other := by
  have hbeq : ∀ key : String, other ≠ key → (other == key) = false := fun key h => by simpa using h
  induction table with
  | nil =>
    by_cases h : other = name
    · simp [append, h]
    · simp [append, List.lookup_cons, h, hbeq]
  | cons entry table ih =>
    obtain ⟨key, overloads⟩ := entry
    by_cases hk : key = name
    · by_cases h : other = name
      · simp [append, hk, h]
      · simp [append, List.lookup_cons, hk, h, hbeq]
    · by_cases hn : other = key
      · subst hn
        simp [append, hk]
      · simp [append, List.lookup_cons, hk, hbeq key hn, ih]

theorem kept_append (other : String) :
    kept ⟨append name overload table⟩ other =
      if other = name then kept ⟨table⟩ other ++ [overload] else kept ⟨table⟩ other := by
  simp only [kept, lookup_append]
  split_ifs <;> rfl

theorem mem_names_append (other : String) :
    other ∈ names ⟨append name overload table⟩ ↔ other ∈ names ⟨table⟩ ∨ other = name := by
  induction table with
  | nil => simp [append, names]
  | cons entry table ih =>
    obtain ⟨key, overloads⟩ := entry
    simp only [names] at ih
    by_cases hk : key = name
    · simp only [append, hk, names, List.map_cons, List.mem_cons, if_true]
      tauto
    · simp only [append, if_neg hk, names, List.map_cons, List.mem_cons, ih]
      tauto

end Table

theorem overloads_eq (r : Registry) (name : String) :
    r.overloads name = (r.kept name).map Overload.node := by
  rw [overloads, get?, kept]
  cases r.table.lookup name <;> rfl

theorem kept_mem (r : Registry) (name : String) :
    r.kept name = [] ∨ (name, r.kept name) ∈ r.table := by
  unfold kept
  cases hl : r.table.lookup name with
  | none => exact .inl rfl
  | some kept =>
    obtain ⟨before, after, he, -⟩ := List.lookup_eq_some_iff.mp hl
    exact .inr (by simp [he])

theorem mem_names_of_record {r : Registry} {name : String} {record : Record}
    (h : record ∈ r.keptRecords name) : name ∈ r.names := by
  rcases r.kept_mem name with hnone | hentry
  · simp [keptRecords, hnone] at h
  · exact List.mem_map_of_mem hentry

/-- What an offer comes to. A node that is not added leaves the registry as it was: it is a
placeholder, or its entry was there before it was opened. -/
theorem offer_eq (r : Registry) (node : Node) :
    r.offer node =
      if node.isPlaceholder = true ∨ node.record ∈ r.keptRecords node.id then (false, r)
      else (true, ⟨append node.id ⟨node, node.record⟩ r.table⟩) := by
  have hrepeated : (kept ⟨openEntry node.id r.table⟩ node.id).any
      (fun overload => overload.record = node.record) = true ↔
      node.record ∈ r.keptRecords node.id := by
    rw [kept_openEntry, keptRecords]
    simp
  cases hp : node.isPlaceholder with
  | true => simp [offer, hp]
  | false =>
    simp only [offer, hp, hrepeated, push_openEntry, Bool.false_eq_true, if_false, false_or]
    split_ifs with hold
    · rw [openEntry_of_mem _ _ (mem_names_of_record hold)]
    · rfl

theorem admits_eq_false_iff (r : Registry) (node : Node) :
    r.admits node = false ↔
      node.isPlaceholder = true ∨ node.record ∈ r.keptRecords node.id := by
  rw [admits, offer_eq]
  split_ifs with h <;> simp [h]

theorem plain_of_admits {r : Registry} {node : Node} (h : r.admits node = true) :
    node.isPlaceholder = false := by
  by_contra hp
  have hrefused := (r.admits_eq_false_iff node).mpr (.inl (by simpa using hp))
  simp [h] at hrefused

theorem save_eq (r : Registry) (node : Node) :
    r.save node =
      if r.admits node = true then ⟨append node.id ⟨node, node.record⟩ r.table⟩ else r := by
  rw [save, admits, offer_eq]
  split_ifs <;> simp_all

theorem kept_save (r : Registry) (node : Node) (name : String) :
    (r.save node).kept name =
      if r.admits node = true ∧ node.id = name then r.kept name ++ [⟨node, node.record⟩]
      else r.kept name := by
  rw [save_eq]
  cases ha : r.admits node with
  | false => simp
  | true => simp [kept_append, eq_comm]

theorem mem_keptRecords_save (r : Registry) (node : Node) (name : String) (record : Record) :
    record ∈ (r.save node).keptRecords name ↔
      record ∈ r.keptRecords name ∨
        (node.isPlaceholder = false ∧ node.id = name ∧ node.record = record) := by
  rw [keptRecords, kept_save]
  cases ha : r.admits node with
  | false =>
    simp only [Bool.false_eq_true, false_and, if_false]
    constructor
    · exact fun h => .inl h
    · rintro (h | ⟨hp, rfl, rfl⟩)
      · exact h
      · rcases (r.admits_eq_false_iff node).mp ha with h | h
        · simp [hp] at h
        · exact h
  | true =>
    have hp : node.isPlaceholder = false := plain_of_admits ha
    by_cases h : node.id = name
    · simp [keptRecords, h, hp, eq_comm]
    · simp [keptRecords, h]

theorem mem_names_save (r : Registry) (node : Node) (name : String) :
    name ∈ (r.save node).names ↔
      name ∈ r.names ∨ (node.isPlaceholder = false ∧ node.id = name) := by
  rw [save_eq]
  cases ha : r.admits node with
  | false =>
    simp only [Bool.false_eq_true, if_false]
    constructor
    · exact fun h => .inl h
    · rintro (h | ⟨hp, rfl⟩)
      · exact h
      · rcases (r.admits_eq_false_iff node).mp ha with h | h
        · simp [hp] at h
        · exact mem_names_of_record h
  | true =>
    simp only [if_true, mem_names_append]
    simp [plain_of_admits ha, eq_comm]

theorem mem_keptRecords_saveAll (r : Registry) (nodes : List Node) (name : String)
    (record : Record) :
    record ∈ (r.saveAll nodes).keptRecords name ↔
      record ∈ r.keptRecords name ∨
        ∃ node ∈ nodes, node.isPlaceholder = false ∧ node.id = name ∧ node.record = record := by
  induction nodes generalizing r with
  | nil => simp [saveAll]
  | cons node nodes ih =>
    have hstep := ih (r.save node)
    simp only [saveAll, List.foldl_cons] at hstep ⊢
    rw [hstep, mem_keptRecords_save, or_assoc]
    simp

theorem mem_names_saveAll (r : Registry) (nodes : List Node) (name : String) :
    name ∈ (r.saveAll nodes).names ↔
      name ∈ r.names ∨ ∃ node ∈ nodes, node.isPlaceholder = false ∧ node.id = name := by
  induction nodes generalizing r with
  | nil => simp [saveAll]
  | cons node nodes ih =>
    have hstep := ih (r.save node)
    simp only [saveAll, List.foldl_cons] at hstep ⊢
    rw [hstep, mem_names_save, or_assoc]
    simp

theorem admits_saveAll (r : Registry) {nodes : List Node} {node : Node} (h : node ∈ nodes) :
    (r.saveAll nodes).admits node = false := by
  rw [admits_eq_false_iff]
  cases hp : node.isPlaceholder with
  | true => exact .inl rfl
  | false => exact .inr ((mem_keptRecords_saveAll r nodes _ _).mpr (.inr ⟨node, h, hp, rfl, rfl⟩))

theorem saveAll_concat (r : Registry) (nodes : List Node) (node : Node) :
    r.saveAll (nodes ++ [node]) = (r.saveAll nodes).save node := by
  simp [saveAll, List.foldl_append]

theorem mem_append {name : String} {overload : Overload} {table : List (String × List Overload)}
    {entry : String × List Overload} (h : entry ∈ append name overload table) :
    entry ∈ table ∨ entry = (name, kept ⟨table⟩ name ++ [overload]) := by
  induction table with
  | nil => exact .inr (List.mem_singleton.mp h)
  | cons first table ih =>
    obtain ⟨key, overloads⟩ := first
    by_cases hk : key = name
    · subst hk
      rw [append, if_pos rfl] at h
      rcases List.mem_cons.mp h with rfl | h
      · exact .inr (by simp [kept])
      · exact .inl (List.mem_cons_of_mem _ h)
    · rw [append, if_neg hk] at h
      have hlater : kept ⟨(key, overloads) :: table⟩ name = kept ⟨table⟩ name := by
        have hbeq : (name == key) = false := by simpa using Ne.symm hk
        simp [kept, List.lookup_cons, hbeq]
      rcases List.mem_cons.mp h with rfl | h
      · exact .inl List.mem_cons_self
      · rw [hlater]
        exact (ih h).imp (List.mem_cons_of_mem _) id

/-- An entry as a registry keeps it: some overloads with different records, each with the record of
its node, all of them saved under the name of the entry and none a placeholder. -/
structure Proper (saved : List Node) (entry : String × List Overload) : Prop where
  nonempty : entry.2 ≠ []
  cached : ∀ overload ∈ entry.2, overload.record = overload.node.record
  distinct : (entry.2.map Overload.record).Nodup
  filed : ∀ overload ∈ entry.2, overload.node.id = entry.1
  plain : ∀ overload ∈ entry.2, overload.node.isPlaceholder = false
  saved : ∀ overload ∈ entry.2, overload.node ∈ saved

namespace Proper

variable {saved : List Node} {entry : String × List Overload}

theorem more (h : Proper saved entry) (node : Node) : Proper (saved ++ [node]) entry where
  nonempty := h.nonempty
  cached := h.cached
  distinct := h.distinct
  filed := h.filed
  plain := h.plain
  saved := fun overload hmem => List.mem_append_left _ (h.saved overload hmem)

theorem records_eq (h : Proper saved entry) :
    entry.2.map Overload.record = (entry.2.map Overload.node).map Node.record := by
  rw [List.map_map]
  exact List.map_congr_left h.cached

theorem extended {r : Registry} (h : ∀ entry ∈ r.table, Proper saved entry) {node : Node}
    (ha : r.admits node = true) :
    Proper (saved ++ [node]) (node.id, r.kept node.id ++ [⟨node, node.record⟩]) := by
  have hplain : node.isPlaceholder = false := plain_of_admits ha
  have hnew : node.record ∉ r.keptRecords node.id := by
    intro hold
    have hrefused := (r.admits_eq_false_iff node).mpr (.inr hold)
    simp [ha] at hrefused
  rcases (r.kept_mem node.id).imp_right (h _) with hnone | hold
  · rw [hnone]
    exact ⟨by simp, by simp, by simp, by simp, by simpa using hplain, by simp⟩
  · refine ⟨by simp, ?_, ?_, ?_, ?_, ?_⟩
    · simpa [or_imp, forall_and] using hold.cached
    · rw [List.map_append, List.nodup_append]
      refine ⟨hold.distinct, by simp, fun record hrecord other hother heq => ?_⟩
      obtain rfl : other = node.record := by simpa using hother
      exact hnew (heq ▸ hrecord)
    · simpa [or_imp, forall_and] using hold.filed
    · simpa [or_imp, forall_and, hplain] using hold.plain
    · intro overload hmem
      rcases List.mem_append.mp hmem with hmem | hmem
      · exact List.mem_append_left _ (hold.saved overload hmem)
      · obtain rfl := List.mem_singleton.mp hmem
        exact List.mem_append_right _ (List.mem_singleton_self _)

/-- Saving keeps the entries of a registry proper. -/
theorem save {r : Registry} (h : ∀ entry ∈ r.table, Proper saved entry) (node : Node) :
    ∀ entry ∈ (r.save node).table, Proper (saved ++ [node]) entry := by
  intro entry hentry
  rw [save_eq] at hentry
  split_ifs at hentry with ha
  · rcases mem_append hentry with hold | rfl
    · exact (h entry hold).more node
    · exact extended h ha
  · exact (h entry hentry).more node

end Proper

/-- Every entry of a registry is proper. -/
theorem saveAll_proper (nodes : List Node) :
    ∀ entry ∈ (Registry.empty.saveAll nodes).table, Proper nodes entry := by
  induction nodes using List.reverseRecOn with
  | nil => simp [saveAll, Registry.empty]
  | append_singleton nodes node ih =>
    rw [saveAll_concat]
    exact Proper.save ih node

theorem keptRecords_saveAll (nodes : List Node) (name : String) :
    (Registry.empty.saveAll nodes).keptRecords name =
      ((Registry.empty.saveAll nodes).overloads name).map Node.record := by
  rw [overloads_eq, keptRecords]
  rcases (Registry.empty.saveAll nodes).kept_mem name with hnone | hentry
  · rw [hnone]
    rfl
  · exact (saveAll_proper nodes _ hentry).records_eq

theorem mem_records_saveAll (nodes : List Node) (name : String) (record : Record) :
    record ∈ ((Registry.empty.saveAll nodes).overloads name).map Node.record ↔
      ∃ node ∈ nodes, node.isPlaceholder = false ∧ node.id = name ∧ node.record = record := by
  rw [← keptRecords_saveAll, mem_keptRecords_saveAll]
  exact or_iff_right List.not_mem_nil

theorem mem_entries {r : Registry} {name : String} {overloads : List Node} :
    (name, overloads) ∈ r.entries ↔
      ∃ kept, (name, kept) ∈ r.table ∧ kept.map Overload.node = overloads := by
  simp [entries]

section Fresh

variable {name : String} {overload : Overload} {table : List (String × List Overload)}

theorem append_fresh (h : name ∉ names ⟨table⟩) (more : List (String × List Overload)) :
    append name overload (table ++ more) = table ++ append name overload more := by
  induction table with
  | nil => rfl
  | cons entry table ih =>
    obtain ⟨key, kept⟩ := entry
    obtain ⟨hkey, hrest⟩ := not_or.mp (mt List.mem_cons.mpr h)
    rw [List.cons_append, append, if_neg (Ne.symm hkey), ih hrest]
    rfl

theorem kept_fresh (h : name ∉ names ⟨table⟩) (more : List (String × List Overload)) :
    kept ⟨table ++ more⟩ name = kept ⟨more⟩ name := by
  have hnone : table.lookup name = none := by
    rw [List.lookup_eq_none_iff]
    intro entry hentry
    simpa using fun heq : name = entry.1 => h (heq ▸ List.mem_map_of_mem hentry)
  simp [kept, List.lookup_append, hnone]

theorem save_fresh {node : Node} (h : node.isPlaceholder = false → node.id ∉ names ⟨table⟩)
    (r : Registry) : save ⟨table ++ r.table⟩ node = ⟨table ++ (r.save node).table⟩ := by
  cases hp : node.isPlaceholder with
  | true => simp [save, offer, hp]
  | false =>
    have hnew := h hp
    have hadmits : admits ⟨table ++ r.table⟩ node = r.admits node := by
      rw [← Bool.not_inj_iff, Bool.eq_iff_iff, Bool.not_eq_true', Bool.not_eq_true',
        admits_eq_false_iff, admits_eq_false_iff, keptRecords, keptRecords, kept_fresh hnew]
    rw [save_eq, save_eq, hadmits]
    split_ifs
    · rw [append_fresh hnew]
    · rfl

end Fresh

/-- Nodes whose ids are not in a registry are kept after what it holds, as in a registry of their
own. -/
theorem saveAll_fresh (r : Registry) {nodes : List Node}
    (h : ∀ node ∈ nodes, node.isPlaceholder = false → node.id ∉ r.names) (r' : Registry) :
    saveAll ⟨r.table ++ r'.table⟩ nodes = ⟨r.table ++ (r'.saveAll nodes).table⟩ := by
  induction nodes generalizing r' with
  | nil => rfl
  | cons node nodes ih =>
    have hsave := save_fresh (h node List.mem_cons_self) r'
    simp only [saveAll, List.foldl_cons, hsave]
    exact ih (fun later hlater => h later (List.mem_cons_of_mem _ hlater)) (r'.save node)

end Registry

inductive Repeats {α : Type} : List α → List α → Prop
  | nil : Repeats [] []
  | next {short long : List α} (h : Repeats short long) (a : α) :
      Repeats (short ++ [a]) (long ++ [a])
  | again {short long : List α} (h : Repeats short long) {a : α} (ha : a ∈ short) :
      Repeats short (long ++ [a])

namespace Repeats

variable {α β : Type} {short long short' long' : List α}

theorem refl (l : List α) : Repeats l l := by
  induction l using List.reverseRecOn with
  | nil => exact .nil
  | append_singleton l a ih => exact ih.next a

theorem append (h : Repeats short long) (h' : Repeats short' long') :
    Repeats (short ++ short') (long ++ long') := by
  induction h' with
  | nil => simpa using h
  | next _ a ih => simpa using ih.next a
  | again _ ha ih => simpa using ih.again (List.mem_append_right _ ha)

theorem append_old (h : Repeats short long) {extra : List α} (he : ∀ a ∈ extra, a ∈ short) :
    Repeats short (long ++ extra) := by
  induction extra using List.reverseRecOn with
  | nil => simpa using h
  | append_singleton extra a ih =>
    have hrest := ih (fun b hb => he b (List.mem_append_left _ hb))
    simpa using hrest.again (he a (by simp))

theorem map (f : α → β) (h : Repeats short long) : Repeats (short.map f) (long.map f) := by
  induction h with
  | nil => exact .nil
  | next _ a ih => simpa using ih.next (f a)
  | again _ ha ih => simpa using ih.again (List.mem_map_of_mem ha)

theorem mem_iff (h : Repeats short long) (a : α) : a ∈ long ↔ a ∈ short := by
  induction h with
  | nil => rfl
  | next _ b ih => simp [ih]
  | again _ hb ih =>
    rw [List.mem_append, ih, List.mem_singleton]
    constructor
    · rintro (h | rfl)
      · exact h
      · exact hb
    · exact .inl

end Repeats

/-- Repeated nodes leave no trace in a registry. -/
theorem Registry.saveAll_repeats (r : Registry) {short long : List Node} (h : Repeats short long) :
    r.saveAll long = r.saveAll short := by
  induction h with
  | nil => rfl
  | next _ node ih =>
    simp only [saveAll, List.foldl_append] at ih ⊢
    rw [ih]
  | again _ hnode ih =>
    have hrefused := r.admits_saveAll hnode
    simp only [saveAll, List.foldl_append] at ih hrefused ⊢
    rw [ih, List.foldl_cons, List.foldl_nil, save_eq, if_neg (by simp [hrefused])]

end AmbientCatalog
