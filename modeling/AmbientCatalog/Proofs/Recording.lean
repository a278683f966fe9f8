import AmbientCatalog.Proofs.FirstSaves

/-!
# What a record keeps of a node

A record can be read back. The texts of kinds and of tags are all different, and the tags of a set
are written one by one in their order, so that a record tells the node it was written for, except
for the `declare` tag, which has no text. Two nodes therefore have the same record exactly if they
are equal once that tag is taken off at every depth.
-/

set_option autoImplicit false

namespace AmbientCatalog

theorem Kind.ofText?_kindText (word : Keyword) :
    Kind.ofText? word.kindText = some (.keyword word) := by
  cases word <;> rfl

theorem Kind.ofText?_text (kind : Kind) : Kind.ofText? kind.text = some kind := by
  cases kind with
  | keyword word => exact Kind.ofText?_kindText word
  | _ => rfl

namespace Tag

theorem mem_all (t : Tag) : t ∈ all := by
  cases t <;> decide

theorem all_getElem?_index (t : Tag) : all[t.index]? = some t := by
  cases t <;> rfl

theorem index_injective : Function.Injective index := by
  intro t u h
  have hu := all_getElem?_index u
  rw [← h, all_getElem?_index t] at hu
  exact Option.some.inj hu

theorem exists_index : ∀ i < 12, ∃ t ∈ all, t.index = i := by
  decide

theorem index_lt (t : Tag) : t.index < 12 := by
  cases t <;> decide

theorem all_increasing : all.Pairwise (fun t u => t.index < u.index) := by
  decide

theorem bind_ofText?_text (t : Tag) :
    t.text.bind ofText? = if t = isDeclared then none else some t := by
  cases t <;> rfl

end Tag

namespace TagSet

theorem contains_empty (t : Tag) : empty.contains t = false := by
  simp [contains, empty]

theorem contains_insert (s : TagSet) (t u : Tag) :
    (s.insert t).contains u = (s.contains u || decide (t = u)) := by
  have hindex : t.index = u.index ↔ t = u := Tag.index_injective.eq_iff
  simp [contains, insert, BitVec.getLsbD_twoPow, t.index_lt, hindex]

theorem insert_isEmpty (s : TagSet) (t : Tag) : (s.insert t).isEmpty = false := by
  rw [isEmpty, beq_eq_false_iff_ne]
  intro h
  have hcontains := contains_insert s t t
  rw [h, contains_empty] at hcontains
  simp at hcontains

theorem contains_insertAll (s : TagSet) (ts : List Tag) (u : Tag) :
    (s.insertAll ts).contains u = (s.contains u || decide (u ∈ ts)) := by
  induction ts generalizing s with
  | nil => simp [insertAll]
  | cons t ts ih =>
    have hrest := ih (s.insert t)
    simp only [insertAll, List.foldl_cons] at hrest ⊢
    rw [hrest, contains_insert, Bool.or_assoc]
    simp [List.mem_cons, eq_comm]

theorem contains_ofList (ts : List Tag) (u : Tag) : (ofList ts).contains u = decide (u ∈ ts) := by
  rw [ofList, contains_insertAll, contains_empty, Bool.false_or]

def erase (s : TagSet) (t : Tag) : TagSet := ⟨s.bits &&& ~~~BitVec.twoPow 12 t.index⟩

theorem contains_erase (s : TagSet) (t u : Tag) :
    (s.erase t).contains u = (s.contains u && decide (u ≠ t)) := by
  have hindex : u.index = t.index ↔ u = t := Tag.index_injective.eq_iff
  simp [contains, erase, u.index_lt, hindex]

theorem ext_contains {s s' : TagSet} (h : ∀ t, s.contains t = s'.contains t) : s = s' := by
  obtain ⟨bits⟩ := s
  obtain ⟨bits'⟩ := s'
  congr 1
  apply BitVec.eq_of_getLsbD_eq
  intro i hi
  obtain ⟨t, -, rfl⟩ := Tag.exists_index i hi
  exact h t

theorem toList_increasing (s : TagSet) : s.toList.Pairwise (fun t u => t.index < u.index) :=
  Tag.all_increasing.filter _

/-- What is written for a set depends on what it contains, and lists it in the order of all tags. -/
theorem texts_insertAll (s : TagSet) (ts : List Tag) :
    (s.insertAll ts).texts =
      (Tag.all.filter (fun t => s.contains t || decide (t ∈ ts))).filterMap Tag.text := by
  have hcontains : (s.insertAll ts).contains = fun t => s.contains t || decide (t ∈ ts) :=
    funext (contains_insertAll s ts)
  rw [texts, toList, hcontains]

theorem texts_erase (s : TagSet) : (s.erase .isDeclared).texts = s.texts := by
  rw [texts, texts, toList, toList, List.filterMap_filter, List.filterMap_filter]
  apply List.filterMap_congr
  intro t _
  rw [contains_erase]
  by_cases ht : t = .isDeclared
  · simp [ht, Tag.text]
  · simp [ht]

/-- The tags of a set are read back from their texts, all but the hidden one. -/
theorem ofList_texts (s : TagSet) :
    ofList (s.texts.filterMap Tag.ofText?) = s.erase .isDeclared := by
  apply ext_contains
  intro t
  have hmem : t ∈ s.texts.filterMap Tag.ofText? ↔ s.contains t = true ∧ t ≠ .isDeclared := by
    rw [texts, List.filterMap_filterMap, List.mem_filterMap]
    simp only [Tag.bind_ofText?_text, toList, List.mem_filter, Tag.mem_all, true_and]
    constructor
    · rintro ⟨u, hu, heq⟩
      split_ifs at heq with hhidden
      obtain rfl := Option.some.inj heq
      exact ⟨hu, hhidden⟩
    · rintro ⟨hu, hplain⟩
      exact ⟨t, hu, by rw [if_neg hplain]⟩
  rw [contains_ofList, contains_erase, Bool.eq_iff_iff, decide_eq_true_iff, hmem]
  simp

end TagSet

mutual
def Node.undeclared : Node → Node
  | ⟨id, kind, name, returns, params, generics, text, tags⟩ =>
    { id := id
      kind := kind
      name := name
      returns := Node.allUndeclared returns
      params := Node.allUndeclared params
      generics := Node.allUndeclared generics
      text := text
      tags := tags.erase .isDeclared }

def Node.allUndeclared : List Node → List Node
  | [] => []
  | node :: nodes => node.undeclared :: Node.allUndeclared nodes
end

mutual
def Record.node : Record → Node
  | ⟨id, kind, name, returns, params, generics, text, tags⟩ =>
    { id := id
      kind := (Kind.ofText? kind).getD .unknown
      name := name
      returns := Record.nodes returns
      params := Record.nodes params
      generics := Record.nodes generics
      text := text
      tags := TagSet.ofList (tags.filterMap Tag.ofText?) }

def Record.nodes : List Record → List Node
  | [] => []
  | record :: records => record.node :: Record.nodes records
end

mutual
/-- A node is read back from its record up to the hidden tag. -/
theorem Node.node_record : ∀ node : Node, node.record.node = node.undeclared
  | ⟨id, kind, name, returns, params, generics, text, tags⟩ => by
    rw [Node.record, Record.node, Node.undeclared, Node.nodes_records returns,
      Node.nodes_records params, Node.nodes_records generics, TagSet.ofList_texts,
      Kind.ofText?_text, Option.getD_some]

theorem Node.nodes_records : ∀ nodes : List Node,
    Record.nodes (Node.records nodes) = Node.allUndeclared nodes
  | [] => rfl
  | node :: nodes => by
    rw [Node.records, Record.nodes, Node.allUndeclared, Node.node_record node,
      Node.nodes_records nodes]
end

mutual
theorem Node.record_undeclared : ∀ node : Node, node.undeclared.record = node.record
  | ⟨id, kind, name, returns, params, generics, text, tags⟩ => by
    rw [Node.undeclared, Node.record, Node.record, Node.records_allUndeclared returns,
      Node.records_allUndeclared params, Node.records_allUndeclared generics, TagSet.texts_erase]

theorem Node.records_allUndeclared : ∀ nodes : List Node,
    Node.records (Node.allUndeclared nodes) = Node.records nodes
  | [] => rfl
  | node :: nodes => by
    rw [Node.allUndeclared, Node.records, Node.records, Node.record_undeclared node,
      Node.records_allUndeclared nodes]
end

theorem Node.record_eq_iff {a b : Node} : a.record = b.record ↔ a.undeclared = b.undeclared := by
  constructor
  · intro h
    rw [← a.node_record, h, b.node_record]
  · intro h
    rw [← a.record_undeclared, h, b.record_undeclared]

def Tag.Increasing (texts : List String) : Prop :=
  ∃ ts : List Tag, ts.Pairwise (fun t u => t.index < u.index) ∧ texts = ts.filterMap Tag.text

inductive Record.Ordered : Record → Prop
  | mk {record : Record} (tags : Tag.Increasing record.tags)
      (returns : ∀ child ∈ record.returns, child.Ordered)
      (params : ∀ child ∈ record.params, child.Ordered)
      (generics : ∀ child ∈ record.generics, child.Ordered) : record.Ordered

mutual
theorem Node.record_ordered : ∀ node : Node, node.record.Ordered
  | ⟨id, kind, name, returns, params, generics, text, tags⟩ => by
    rw [Node.record]
    exact .mk ⟨tags.toList, tags.toList_increasing, rfl⟩ (Node.records_ordered returns)
      (Node.records_ordered params) (Node.records_ordered generics)

theorem Node.records_ordered : ∀ nodes : List Node,
    ∀ record ∈ Node.records nodes, record.Ordered
  | [] => by simp [Node.records]
  | node :: nodes => by
    rw [Node.records]
    intro record hrecord
    rcases List.mem_cons.mp hrecord with rfl | hlater
    · exact Node.record_ordered node
    · exact Node.records_ordered nodes record hlater
end

/-- Two nodes have the same record exactly if they become equal when the hidden tag is taken off at
every depth, so a registry refuses a node exactly if one saved before differs from it in nothing
else. -/
theorem Node.record_forgets_declare (a b : Node) :
    (a.record = b.record ↔ a.undeclared = b.undeclared) ∧
    a.record.Ordered ∧
    (∀ (s : TagSet) (ts : List Tag), (s.insertAll ts).texts =
      (Tag.all.filter (fun t => s.contains t || decide (t ∈ ts))).filterMap Tag.text) ∧
    (∀ saved : List Node, (Registry.empty.saveAll saved).admits a = false ↔
      a.isPlaceholder = true ∨ ∃ earlier ∈ saved, earlier.undeclared = a.undeclared) := by
  refine ⟨Node.record_eq_iff, a.record_ordered, TagSet.texts_insertAll, fun saved => ?_⟩
  have hadmits := Registry.admits_saveAll_iff saved a
  rw [← Bool.not_eq_true, hadmits]
  simp only [← Node.record_eq_iff, ne_eq]
  cases a.isPlaceholder with
  | true => simp
  | false => simp

end AmbientCatalog
