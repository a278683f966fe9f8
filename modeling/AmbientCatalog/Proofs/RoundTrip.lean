import AmbientCatalog.Catalog
import AmbientCatalog.Proofs.FirstSaves
import AmbientCatalog.Proofs.Spelling

/-!
# Reading written records and catalogs

What is written for a record, in either form, is read back as the same record, and what is written
for a catalog is read back as its names in order with their records. The only texts the reader
refuses are those nested too deeply. A record tree takes two levels of nesting for each level of
records in it, and a catalog takes two more.
-/

set_option autoImplicit false

namespace AmbientCatalog

namespace Json

def nestingLimit : Nat := 127

mutual
def nesting : Json → Nat
  | .array items => itemsNesting items + 1
  | .object fields => fieldsNesting fields + 1
  | _ => 0

def itemsNesting : List Json → Nat
  | [] => 0
  | item :: items => max (nesting item) (itemsNesting items)

def fieldsNesting : List (Option String × Json) → Nat
  | [] => 0
  | (_, item) :: fields => max (nesting item) (fieldsNesting fields)
end

theorem itemsNesting_texts (texts : List String) : itemsNesting (texts.map Json.text) = 0 := by
  induction texts with
  | nil => rw [List.map_nil, itemsNesting]
  | cons s texts ih => simp [itemsNesting, text, nesting, ih]

end Json

namespace Record

mutual
def depth : Record → Nat
  | ⟨_, _, _, returns, params, generics, _, _⟩ =>
    max (depths returns) (max (depths params) (depths generics)) + 1

def depths : List Record → Nat
  | [] => 0
  | record :: records => max (depth record) (depths records)
end

theorem depth_pos (record : Record) : 0 < record.depth := by
  cases record
  rw [depth]
  exact Nat.succ_pos _

theorem nesting_textJson (text : Option String) : (textJson text).nesting = 0 := by
  cases text <;> simp [textJson, Json.text, Json.nesting]

mutual
theorem nesting_toJson : (record : Record) → record.toJson.nesting = 2 * record.depth
  | ⟨id, kind, name, returns, params, generics, text, tags⟩ => by
    have hr := itemsNesting_toJsons returns
    have hp := itemsNesting_toJsons params
    have hg := itemsNesting_toJsons generics
    simp only [toJson, depth, Json.nesting, Json.fieldsNesting, Json.text, nesting_textJson,
      Json.itemsNesting_texts, hr, hp, hg]
    omega

theorem itemsNesting_toJsons :
    (records : List Record) → Json.itemsNesting (toJsons records) = 2 * depths records
  | [] => by simp [toJsons, Json.itemsNesting, depths]
  | record :: records => by
    rw [toJsons, Json.itemsNesting, nesting_toJson record, itemsNesting_toJsons records, depths]
    omega
end

theorem isPlain_textJson (text : Option String) : (textJson text).IsPlain := by
  cases text with
  | none => exact .null
  | some s => exact .text s

mutual
theorem isPlain_toJson : (record : Record) → record.toJson.IsPlain
  | ⟨id, kind, name, returns, params, generics, text, tags⟩ => by
    have hr := isPlain_toJsons returns
    have hp := isPlain_toJsons params
    have hg := isPlain_toJsons generics
    have ht : ∀ item ∈ tags.map Json.text, item.IsPlain := by simp [Json.IsPlain.text]
    rw [toJson]
    refine .object (by simp) ?_
    simp [Json.IsPlain.text, isPlain_textJson, Json.IsPlain.array hr, Json.IsPlain.array hp,
      Json.IsPlain.array hg, Json.IsPlain.array ht]

theorem isPlain_toJsons : (records : List Record) → ∀ item ∈ toJsons records, item.IsPlain
  | [] => by simp [toJsons]
  | record :: records => by
    simpa [toJsons] using ⟨isPlain_toJson record, isPlain_toJsons records⟩
end

theorem toJsons_eq_map (records : List Record) : toJsons records = records.map toJson := by
  induction records with
  | nil => rw [toJsons, List.map_nil]
  | cons record records ih => rw [toJsons, ih, List.map_cons]

theorem depths_le_iff (records : List Record) (limit : Nat) :
    depths records ≤ limit ↔ ∀ record ∈ records, record.depth ≤ limit := by
  induction records with
  | nil => simp [depths]
  | cons record records ih => rw [depths, Nat.max_le, ih, List.forall_mem_cons]

/-! ### Records -/

/-- Reading a written list, where exactly the items with a property can be read back. -/
theorem mapM_written {α β : Type} {read : β → Option α} {write : α → β} {p : α → Prop}
    [DecidablePred p] (h : ∀ a, read (write a) = if p a then some a else none) (list : List α) :
    (list.map write).mapM read = if ∀ a ∈ list, p a then some list else none := by
  induction list with
  | nil => simp
  | cons a list ih =>
    rw [List.map_cons, List.mapM_cons, h, ih]
    simp only [List.forall_mem_cons]
    by_cases ha : p a
    · simp only [ha, true_and, if_true]
      split_ifs <;> rfl
    · simp only [ha, false_and, if_false]
      rfl

theorem asMaybeText_textJson (text : Option String) : asMaybeText (textJson text) = some text := by
  cases text <;> simp [textJson, Json.text, asMaybeText, asText]

theorem asTexts_texts (texts : List String) :
    asTexts (.array (texts.map Json.text)) = some texts := by
  have h (s : String) : asText (.text s) = if True then some s else none := by
    simp [asText, Json.text]
  simpa [asTexts, asItems] using mapM_written h texts

theorem parts_toJson (record : Record) :
    parts record.toJson = some [.text record.id, .text record.kind, .text record.name,
      .array (toJsons record.returns), .array (toJsons record.params),
      .array (toJsons record.generics), textJson record.text,
      .array (record.tags.map Json.text)] := by
  cases record
  simp [toJson, parts, required, field]

theorem ofJson_succ_toJson (limit : Nat) (record : Record) :
    ofJson (limit + 1) record.toJson = do
      let returns ← (toJsons record.returns).mapM (ofJson limit)
      let params ← (toJsons record.params).mapM (ofJson limit)
      let generics ← (toJsons record.generics).mapM (ofJson limit)
      return { record with returns, params, generics } := by
  rw [ofJson, parts_toJson]
  simp [asItems, asText, Json.text, asMaybeText_textJson, asTexts_texts]

theorem ofJson_toJson (limit : Nat) (record : Record) :
    ofJson limit record.toJson = if record.depth ≤ limit then some record else none := by
  induction limit generalizing record with
  | zero => rw [ofJson, if_neg (Nat.not_le.mpr record.depth_pos)]
  | succ limit ih =>
    have hlist (records : List Record) : (toJsons records).mapM (ofJson limit) =
        if depths records ≤ limit then some records else none := by
      rw [toJsons_eq_map, mapM_written ih]
      simp only [depths_le_iff]
    obtain ⟨id, kind, name, returns, params, generics, text, tags⟩ := record
    simp only [ofJson_succ_toJson, hlist, depth, Nat.add_le_add_iff_right, Nat.max_le]
    by_cases hr : depths returns ≤ limit <;> by_cases hp : depths params ≤ limit <;>
      by_cases hg : depths generics ≤ limit <;> simp [hr, hp, hg]

/-- A record can be read back from its written forms exactly when these are not nested too
deeply. -/
theorem ofJson_depthLimit_toJson (record : Record) :
    ofJson depthLimit record.toJson =
      if record.toJson.nesting ≤ Json.nestingLimit then some record else none := by
  have h : record.depth ≤ depthLimit ↔ record.toJson.nesting ≤ Json.nestingLimit := by
    rw [nesting_toJson, depthLimit, Json.nestingLimit]
    omega
  simp only [ofJson_toJson, h]

theorem parse?_toCompact (record : Record) :
    parse? record.toJson.toCompact =
      if record.toJson.nesting ≤ Json.nestingLimit then some record else none := by
  simp [parse?, Json.parse?_toCompact (isPlain_toJson record), ofJson_depthLimit_toJson]

theorem parse?_toPretty (record : Record) :
    parse? record.toJson.toPretty =
      if record.toJson.nesting ≤ Json.nestingLimit then some record else none := by
  simp [parse?, Json.parse?_toPretty (isPlain_toJson record), ofJson_depthLimit_toJson]

/-! ### Catalogs -/

theorem isPlain_catalogJson (catalog : List (String × List Record)) :
    (catalogJson catalog).IsPlain := by
  refine .object (List.forall_mem_map.mpr (fun _ _ => rfl)) (List.forall_mem_map.mpr ?_)
  intro entry _
  rw [← toJsons_eq_map]
  exact .array (isPlain_toJsons entry.2)

theorem nesting_catalogJson_le_iff (catalog : List (String × List Record)) :
    (catalogJson catalog).nesting ≤ Json.nestingLimit ↔
      ∀ entry ∈ catalog, depths entry.2 ≤ catalogDepthLimit := by
  rw [catalogJson, Json.nesting]
  induction catalog with
  | nil => simp [Json.fieldsNesting, Json.nestingLimit]
  | cons entry catalog ih =>
    rw [List.forall_mem_cons, ← ih, List.map_cons, Json.fieldsNesting, Json.nesting,
      ← toJsons_eq_map, itemsNesting_toJsons, Json.nestingLimit, catalogDepthLimit]
    omega

theorem entryOfJson_written (limit : Nat) (entry : String × List Record) :
    entryOfJson limit (some entry.1, .array (entry.2.map toJson)) =
      if depths entry.2 ≤ limit then some entry else none := by
  have h := mapM_written (ofJson_toJson limit) entry.2
  simp only [← depths_le_iff] at h
  by_cases hd : depths entry.2 ≤ limit <;> simp [entryOfJson, asItems, h, hd]

theorem enter_of_notMem {name : String} {entries : List (String × List Record)}
    (h : name ∉ entries.map Prod.fst) (records : List Record) :
    enter name records entries = entries ++ [(name, records)] := by
  induction entries with
  | nil => rw [enter, List.nil_append]
  | cons entry entries ih =>
    simp only [List.map_cons, List.mem_cons, not_or] at h
    rw [enter, if_neg (Ne.symm h.1), ih h.2, List.cons_append]

theorem foldl_enter (entries catalog : List (String × List Record))
    (h : ((entries ++ catalog).map Prod.fst).Nodup) :
    catalog.foldl (fun entries entry => enter entry.1 entry.2 entries) entries =
      entries ++ catalog := by
  induction catalog generalizing entries with
  | nil => rw [List.foldl_nil, List.append_nil]
  | cons entry catalog ih =>
    have hnew : entry.1 ∉ entries.map Prod.fst := by
      rw [List.map_append, List.nodup_append'] at h
      exact fun hmem => h.2.2 hmem List.mem_cons_self
    rw [List.foldl_cons, enter_of_notMem hnew, ih _ (by simpa using h)]
    simp

theorem parseCatalog?_toPretty {catalog : List (String × List Record)}
    (h : (catalog.map Prod.fst).Nodup) (limit : Nat) :
    parseCatalog? limit (catalogJson catalog).toPretty =
      if ∀ entry ∈ catalog, depths entry.2 ≤ limit then some catalog else none := by
  have hentries := mapM_written (entryOfJson_written limit) catalog
  have henter := foldl_enter [] catalog h
  rw [parseCatalog?, Json.parse?_toPretty (isPlain_catalogJson catalog)]
  show catalogOfJson limit (catalogJson catalog) = _
  rw [catalogJson, catalogOfJson, hentries]
  split_ifs
  · exact congrArg some henter
  · rfl

end Record

def Catalog.depth (catalog : Catalog) : Nat := Record.depths (catalog.records.flatMap Prod.snd)

theorem Catalog.depth_le_iff (catalog : Catalog) (limit : Nat) :
    catalog.depth ≤ limit ↔ ∀ entry ∈ catalog.records, Record.depths entry.2 ≤ limit := by
  simp only [depth, Record.depths_le_iff, List.mem_flatMap]
  constructor
  · intro h entry hentry record hrecord
    exact h record ⟨entry, hentry, hrecord⟩
  · rintro h record ⟨entry, hentry, hrecord⟩
    exact h entry hentry record hrecord

/-- A record is read back from both of its written forms exactly if these stay within the nesting
limit, and a catalog by a reader of any depth that is not less than its own. -/
theorem Catalog.written_read :
    (∀ record : Record,
      Record.parse? record.toJson.toCompact =
        (if record.toJson.nesting ≤ Json.nestingLimit then some record else none) ∧
      Record.parse? record.toJson.toPretty =
        (if record.toJson.nesting ≤ Json.nestingLimit then some record else none)) ∧
    ∀ findings : List Finding,
      (∀ limit, Record.parseCatalog? limit (ofFindings findings).toPretty =
        if (ofFindings findings).depth ≤ limit
        then some (ofFindings findings).records else none) ∧
      ((ofFindings findings).depth ≤ Record.catalogDepthLimit ↔
        (ofFindings findings).toJson.nesting ≤ Json.nestingLimit) := by
  refine ⟨fun record => ⟨record.parse?_toCompact, record.parse?_toPretty⟩, fun findings => ?_⟩
  have hnames : ((ofFindings findings).records.map Prod.fst).Nodup := by
    rw [records, Registry.records, List.map_map]
    exact Registry.nodup_names_saveAll (findings.filterMap Finding.node?)
  constructor
  · intro limit
    simp only [depth_le_iff]
    exact Record.parseCatalog?_toPretty hnames limit
  · rw [depth_le_iff]
    exact (Record.nesting_catalogJson_le_iff (ofFindings findings).records).symm

end AmbientCatalog
