import AmbientCatalog.Json.Reader
import Mathlib.Data.List.DropRight

/-!
# Reading written values

The characters of a value may be spread over lines with blanks between its tokens. The reader takes
every such spelling for the value it spells, and leaves what comes after it. Both written forms,
compact and indented, are spellings, so reading them gives the value back. Numbers keep their
source text and are left out here, as are strings without content, which cannot be written.
-/

set_option autoImplicit false

namespace AmbientCatalog.Json

/-! ### Strings -/

def StringPart.StandsFor (part : StringPart) (c : Char) : Prop :=
  part = .char c ∨ part = .unit c.toNat ∧ c.toNat < 32

theorem joinParts_cons {part : StringPart} {c : Char} (h : part.StandsFor c)
    (parts : List StringPart) : joinParts (part :: parts) = (joinParts parts).map (c :: ·) := by
  rcases h with rfl | ⟨rfl, hc⟩
  · rw [joinParts]
  · have hl : isLeading c.toNat = false := by simp [isLeading]; omega
    have ht : isTrailing c.toNat = false := by simp [isTrailing]; omega
    cases parts with
    | nil => simp [joinParts, hl, ht]
    | cons next parts => cases next <;> simp [joinParts, hl, ht]

theorem ofDigits?_control : ∀ n < 32,
    Hex.ofDigits? ['0', '0', Hex.lowerDigit (n / 16), Hex.lowerDigit (n % 16)] = some n := by
  decide

/-- The three forms of an escaped character: a letter, a number, and the character itself. -/
theorem escape_cases (c : Char) :
    (∃ letter, simpleEscape? letter = some c ∧ escape c = ['\\', letter]) ∨
    (c.toNat < 32 ∧ escape c = ['\\', 'u', '0', '0', Hex.lowerDigit (c.toNat / 16),
      Hex.lowerDigit (c.toNat % 16)]) ∨
    (32 ≤ c.toNat ∧ c ≠ '"' ∧ c ≠ '\\' ∧ escape c = [c]) := by
  generalize hcs : escape c = cs
  rw [escape] at hcs
  split_ifs at hcs with quotes backslash newline carriage tab backspace feed control <;> subst hcs
  · exact .inl ⟨'"', by simp [simpleEscape?, quotes], rfl⟩
  · exact .inl ⟨'\\', by simp [simpleEscape?, backslash], rfl⟩
  · exact .inl ⟨'n', by simp [simpleEscape?, newline], rfl⟩
  · exact .inl ⟨'r', by simp [simpleEscape?, carriage], rfl⟩
  · exact .inl ⟨'t', by simp [simpleEscape?, tab], rfl⟩
  · exact .inl ⟨'b', by simp [simpleEscape?, backspace], rfl⟩
  · exact .inl ⟨'f', by simp [simpleEscape?, feed], rfl⟩
  · exact .inr (.inl ⟨control, rfl⟩)
  · exact .inr (.inr ⟨Nat.le_of_not_lt control, quotes, backslash, rfl⟩)

theorem stringParts_escape (c : Char) (cs : List Char) :
    ∃ part : StringPart, part.StandsFor c ∧
      stringParts (escape c ++ cs) =
        (stringParts cs).map (fun read => (part :: read.1, read.2)) := by
  rcases escape_cases c with ⟨letter, hl, he⟩ | ⟨hc, he⟩ | ⟨hc, hq, hb, he⟩
  · have hu : letter ≠ 'u' := by rintro rfl; simp [simpleEscape?] at hl
    exact ⟨.char c, .inl rfl, by simp [he, stringParts, hl, hu]⟩
  · exact ⟨.unit c.toNat, .inr ⟨rfl, hc⟩, by simp [he, stringParts, ofDigits?_control _ hc]⟩
  · refine ⟨.char c, .inl rfl, ?_⟩
    simp [he, stringParts, hb, Nat.not_lt.mpr hc]

theorem stringParts_flatMap_escape (cs rest : List Char) :
    ∃ parts, stringParts (cs.flatMap escape ++ '"' :: rest) = some (parts, rest) ∧
      joinParts parts = some cs := by
  induction cs with
  | nil => exact ⟨[], by simp [stringParts], by simp [joinParts]⟩
  | cons c cs ih =>
    obtain ⟨parts, hread, hjoin⟩ := ih
    obtain ⟨part, hpart, hescape⟩ := stringParts_escape c (cs.flatMap escape ++ '"' :: rest)
    refine ⟨part :: parts, ?_, ?_⟩
    · rw [List.flatMap_cons, List.append_assoc, hescape, hread, Option.map_some]
    · rw [joinParts_cons hpart, hjoin, Option.map_some]

theorem stringValue_flatMap_escape (s : String) (rest : List Char) :
    stringValue (s.toList.flatMap escape ++ '"' :: rest) = some (some s, rest) := by
  obtain ⟨parts, hread, hjoin⟩ := stringParts_flatMap_escape s.toList rest
  rw [stringValue, hread, Option.map_some, hjoin, Option.map_some, String.ofList_toList]

/-! ### Spellings -/

def Blanks (cs : List Char) : Prop := ∀ c ∈ cs, isBlank c = true

mutual
inductive Spells : Json → List Char → Prop
  | null : Spells .null "null".toList
  | true : Spells (.bool true) "true".toList
  | false : Spells (.bool false) "false".toList
  | text (s : String) : Spells (.text s) (quote s)
  | emptyArray {blanks : List Char} (h : Blanks blanks) :
      Spells (.array []) ('[' :: (blanks ++ [']']))
  | array {items : List Json} {cs : List Char} (h : SpellsItems items cs) :
      Spells (.array items) ('[' :: cs)
  | emptyObject {blanks : List Char} (h : Blanks blanks) :
      Spells (.object []) ('{' :: (blanks ++ ['}']))
  | object {fields : List (Option String × Json)} {cs : List Char} (h : SpellsFields fields cs) :
      Spells (.object fields) ('{' :: cs)

inductive SpellsItems : List Json → List Char → Prop
  | last {item : Json} {blanks cs blanks' : List Char} (hb : Blanks blanks) (h : Spells item cs)
      (hb' : Blanks blanks') : SpellsItems [item] (blanks ++ (cs ++ (blanks' ++ [']'])))
  | cons {item : Json} {items : List Json} {blanks cs blanks' more : List Char}
      (hb : Blanks blanks) (h : Spells item cs) (hb' : Blanks blanks')
      (hmore : SpellsItems items more) :
      SpellsItems (item :: items) (blanks ++ (cs ++ (blanks' ++ ',' :: more)))

inductive SpellsFields : List (Option String × Json) → List Char → Prop
  | last (key : String) {item : Json} {blanks colon cs blanks' : List Char} (hb : Blanks blanks)
      (hc : Blanks colon) (h : Spells item cs) (hb' : Blanks blanks') :
      SpellsFields [(some key, item)]
        (blanks ++ (quote key ++ ':' :: (colon ++ (cs ++ (blanks' ++ ['}'])))))
  | cons (key : String) {item : Json} {fields : List (Option String × Json)}
      {blanks colon cs blanks' more : List Char} (hb : Blanks blanks) (hc : Blanks colon)
      (h : Spells item cs) (hb' : Blanks blanks') (hmore : SpellsFields fields more) :
      SpellsFields ((some key, item) :: fields)
        (blanks ++ (quote key ++ ':' :: (colon ++ (cs ++ (blanks' ++ ',' :: more)))))
end

theorem skipBlanks_append {blanks : List Char} (h : Blanks blanks) (cs : List Char) :
    skipBlanks (blanks ++ cs) = skipBlanks cs := by
  rw [skipBlanks, List.dropWhile_append_of_pos h, skipBlanks]

theorem skipBlanks_cons {c : Char} (h : isBlank c = false) (cs : List Char) :
    skipBlanks (c :: cs) = c :: cs :=
  List.dropWhile_cons_of_neg (by simp [h])

theorem skipBlanks_token {blanks : List Char} (hb : Blanks blanks) {c : Char}
    (hc : isBlank c = false) (cs : List Char) : skipBlanks (blanks ++ c :: cs) = c :: cs := by
  rw [skipBlanks_append hb, skipBlanks_cons hc]

theorem skipBlanks_skipBlanks (cs : List Char) : skipBlanks (skipBlanks cs) = skipBlanks cs :=
  List.dropWhile_idempotent _ cs

theorem value_skipBlanks (depth : Nat) (cs : List Char) :
    value depth (skipBlanks cs) = value depth cs := by
  cases depth with
  | zero => rw [value, value]
  | succ depth => rw [value, skipBlanks_skipBlanks, value]

theorem items_skipBlanks (depth : Nat) (cs : List Char) :
    items depth (skipBlanks cs) = items depth cs := by
  cases depth with
  | zero => rw [items, items]
  | succ depth => rw [items, value_skipBlanks, items]

theorem fields_skipBlanks (depth : Nat) (cs : List Char) :
    fields depth (skipBlanks cs) = fields depth cs := by
  cases depth with
  | zero => rw [fields, fields]
  | succ depth => rw [fields, skipBlanks_skipBlanks, fields]

theorem Spells.skipBlanks_eq_cons {j : Json} {cs : List Char} (h : Spells j cs) (rest : List Char) :
    ∃ c tail, c ≠ ']' ∧ skipBlanks (cs ++ rest) = c :: tail := by
  cases h
  all_goals exact ⟨_, _, by decide, skipBlanks_cons (by decide) _⟩

theorem SpellsItems.skipBlanks_eq_cons {list : List Json} {cs : List Char}
    (h : SpellsItems list cs) (rest : List Char) :
    ∃ c tail, c ≠ ']' ∧ skipBlanks (cs ++ rest) = c :: tail := by
  cases h with
  | last hb h _ =>
    rw [List.append_assoc, skipBlanks_append hb, List.append_assoc]
    exact h.skipBlanks_eq_cons _
  | cons hb h _ _ =>
    rw [List.append_assoc, skipBlanks_append hb, List.append_assoc]
    exact h.skipBlanks_eq_cons _

theorem SpellsFields.skipBlanks_eq_cons {list : List (Option String × Json)} {cs : List Char}
    (h : SpellsFields list cs) (rest : List Char) :
    ∃ tail, skipBlanks (cs ++ rest) = '"' :: tail := by
  cases h with
  | last _ hb _ _ _ =>
    rw [List.append_assoc, skipBlanks_append hb]
    exact ⟨_, skipBlanks_cons (by decide) _⟩
  | cons _ hb _ _ _ _ =>
    rw [List.append_assoc, skipBlanks_append hb]
    exact ⟨_, skipBlanks_cons (by decide) _⟩

/-! ### Reading a spelling -/

theorem value_append {blanks : List Char} (h : Blanks blanks) (depth : Nat) (cs : List Char) :
    value depth (blanks ++ cs) = value depth cs := by
  rw [← value_skipBlanks, skipBlanks_append h, value_skipBlanks]

theorem value_items {cs tail : List Char} {c : Char} (hc : c ≠ ']')
    (h : skipBlanks cs = c :: tail) (depth : Nat) :
    value (depth + 1) ('[' :: cs) =
      (items depth cs).map (fun read => (.array read.1, read.2)) := by
  rw [← items_skipBlanks depth cs, h, value, skipBlanks_cons (by decide)]
  simp [h, hc]

theorem value_fields {cs tail : List Char} (h : skipBlanks cs = '"' :: tail) (depth : Nat) :
    value (depth + 1) ('{' :: cs) =
      (fields depth cs).map (fun read => (.object read.1, read.2)) := by
  rw [← fields_skipBlanks depth cs, h, value, skipBlanks_cons (by decide)]
  simp [h]

structure Reads (depth : Nat) : Prop where
  value {j : Json} {cs : List Char} (h : Spells j cs) (hlt : cs.length < depth)
    (rest : List Char) : value depth (cs ++ rest) = some (j, rest)
  items {list : List Json} {cs : List Char} (h : SpellsItems list cs) (hlt : cs.length < depth)
    (rest : List Char) : items depth (cs ++ rest) = some (list, rest)
  fields {list : List (Option String × Json)} {cs : List Char} (h : SpellsFields list cs)
    (hlt : cs.length < depth) (rest : List Char) : fields depth (cs ++ rest) = some (list, rest)

namespace Reads

variable {depth : Nat} (reads : Reads depth)
include reads

theorem value_succ {j : Json} {cs : List Char} (h : Spells j cs) (hlt : cs.length < depth + 1)
    (rest : List Char) : Json.value (depth + 1) (cs ++ rest) = some (j, rest) := by
  cases h with
  | null => rw [Json.value]; rfl
  | true => rw [Json.value]; rfl
  | false => rw [Json.value]; rfl
  | text s =>
    rw [Json.value, quote, List.cons_append, skipBlanks_cons (by decide), List.append_assoc,
      List.singleton_append]
    simp [stringValue_flatMap_escape, text]
  | emptyArray hb =>
    rw [Json.value, List.cons_append, skipBlanks_cons (by decide), List.append_assoc]
    simp [skipBlanks_token hb, isBlank]
  | array h =>
    obtain ⟨c, tail, hc, hskip⟩ := h.skipBlanks_eq_cons rest
    rw [List.cons_append, value_items hc hskip, reads.items h (by simpa using hlt)]
    rfl
  | emptyObject hb =>
    rw [Json.value, List.cons_append, skipBlanks_cons (by decide), List.append_assoc]
    simp [skipBlanks_token hb, isBlank]
  | object h =>
    obtain ⟨tail, hskip⟩ := h.skipBlanks_eq_cons rest
    rw [List.cons_append, value_fields hskip, reads.fields h (by simpa using hlt)]
    rfl

theorem items_succ {list : List Json} {cs : List Char} (h : SpellsItems list cs)
    (hlt : cs.length < depth + 1) (rest : List Char) :
    Json.items (depth + 1) (cs ++ rest) = some (list, rest) := by
  cases h with
  | last hb h hb' =>
    simp only [List.length_append, List.length_singleton] at hlt
    rw [List.append_assoc, Json.items, value_append hb, List.append_assoc,
      reads.value h (by omega)]
    simp [skipBlanks_token hb', isBlank]
  | cons hb h hb' hmore =>
    simp only [List.length_append, List.length_cons] at hlt
    rw [List.append_assoc, Json.items, value_append hb, List.append_assoc,
      reads.value h (by omega)]
    simp [skipBlanks_token hb', isBlank, reads.items hmore (by omega)]

theorem fields_succ {list : List (Option String × Json)} {cs : List Char}
    (h : SpellsFields list cs) (hlt : cs.length < depth + 1) (rest : List Char) :
    Json.fields (depth + 1) (cs ++ rest) = some (list, rest) := by
  cases h with
  | last key hb hc h hb' =>
    simp only [List.length_append, List.length_cons] at hlt
    have hvalue := reads.value h (by omega)
    simp [Json.fields, skipBlanks_append hb, quote, skipBlanks_cons, stringValue_flatMap_escape,
      value_append hc, hvalue, skipBlanks_token hb', isBlank]
  | cons key hb hc h hb' hmore =>
    simp only [List.length_append, List.length_cons] at hlt
    have hvalue := reads.value h (by omega)
    have hfields := reads.fields hmore (by omega)
    simp [Json.fields, skipBlanks_append hb, quote, skipBlanks_cons, stringValue_flatMap_escape,
      value_append hc, hvalue, hfields, skipBlanks_token hb', isBlank]

end Reads

theorem reads (depth : Nat) : Reads depth := by
  -- every call inside goes one level down, whatever it reads, so the depth alone carries this
  induction depth with
  | zero => constructor <;> (intros; omega)
  | succ depth ih => exact ⟨ih.value_succ, ih.items_succ, ih.fields_succ⟩

theorem parse?_of_spells {j : Json} {cs : List Char} (h : Spells j cs) :
    parse? (String.ofList cs) = some j := by
  have hread := (reads (cs.length + 1)).value h (Nat.lt_succ_self _) []
  rw [List.append_nil] at hread
  simp [parse?, hread, skipBlanks]

/-! ### The written forms -/

inductive IsPlain : Json → Prop
  | null : IsPlain .null
  | bool (value : Bool) : IsPlain (.bool value)
  | text (s : String) : IsPlain (.text s)
  | array {items : List Json} (h : ∀ item ∈ items, IsPlain item) : IsPlain (.array items)
  | object {fields : List (Option String × Json)} (hkey : ∀ field ∈ fields, field.1.isSome)
      (h : ∀ field ∈ fields, IsPlain field.2) : IsPlain (.object fields)

theorem blanks_nil : Blanks [] := by simp [Blanks]

theorem blanks_space : Blanks [' '] := by simp [Blanks, isBlank]

theorem blanks_newline (level : Nat) : Blanks (newline level) := by
  simp [Blanks, newline, isBlank]

section Bodies

variable {write : Json → List Char} {blanks colon final : List Char}

theorem spellsItems_body {body : List Json → List Char} (hb : Blanks blanks) (hf : Blanks final)
    (hlast : ∀ item, body [item] = blanks ++ write item)
    (hcons : ∀ item next items,
      body (item :: next :: items) = blanks ++ (write item ++ ',' :: body (next :: items)))
    (item : Json) (items : List Json) (h : ∀ i ∈ item :: items, Spells i (write i)) :
    SpellsItems (item :: items) (body (item :: items) ++ (final ++ [']'])) := by
  induction items generalizing item with
  | nil =>
    rw [hlast, List.append_assoc]
    exact .last hb (h item List.mem_cons_self) hf
  | cons next items ih =>
    have hmore := ih next (fun i hi => h i (List.mem_cons_of_mem _ hi))
    have hspells := SpellsItems.cons hb (h item List.mem_cons_self) blanks_nil hmore
    simpa [hcons] using hspells

theorem spellsFields_body {body : List (Option String × Json) → List Char} (hb : Blanks blanks)
    (hc : Blanks colon) (hf : Blanks final)
    (hlast : ∀ key item,
      body [(key, item)] = blanks ++ (quoteContent key ++ ':' :: (colon ++ write item)))
    (hcons : ∀ key item next fields, body ((key, item) :: next :: fields) =
      blanks ++ (quoteContent key ++ ':' ::
        (colon ++ (write item ++ ',' :: body (next :: fields)))))
    (field : Option String × Json) (fields : List (Option String × Json))
    (hkey : ∀ f ∈ field :: fields, f.1.isSome) (h : ∀ f ∈ field :: fields, Spells f.2 (write f.2)) :
    SpellsFields (field :: fields) (body (field :: fields) ++ (final ++ ['}'])) := by
  induction fields generalizing field with
  | nil =>
    obtain ⟨_ | key, item⟩ := field
    · simp at hkey
    · have hspells := SpellsFields.last key hb hc (h (some key, item) List.mem_cons_self) hf
      simpa [hlast, quoteContent] using hspells
  | cons next fields ih =>
    have hmore := ih next (fun f hf => hkey f (List.mem_cons_of_mem _ hf))
      (fun f hf => h f (List.mem_cons_of_mem _ hf))
    obtain ⟨_ | key, item⟩ := field
    · simp at hkey
    · have hspells :=
        SpellsFields.cons key hb hc (h (some key, item) List.mem_cons_self) blanks_nil hmore
      simpa [hcons, quoteContent] using hspells

end Bodies

theorem spells_compact {j : Json} (h : j.IsPlain) : Spells j (compact j) := by
  induction h with
  | null => exact .null
  | bool value =>
    cases value with
    | true => exact .true
    | false => exact .false
  | text s => exact .text s
  | @array items _ ih =>
    rw [compact]
    cases items with
    | nil => exact .emptyArray blanks_nil
    | cons item items =>
      exact .array (spellsItems_body blanks_nil blanks_nil (by simp [compactItems])
        (by simp [compactItems]) item items ih)
  | @object fields hkey _ ih =>
    rw [compact]
    cases fields with
    | nil => exact .emptyObject blanks_nil
    | cons field fields =>
      exact .object (spellsFields_body blanks_nil blanks_nil blanks_nil (by simp [compactFields])
        (by simp [compactFields]) field fields hkey ih)

theorem spells_indented {j : Json} (h : j.IsPlain) (level : Nat) :
    Spells j (indented level j) := by
  induction h generalizing level with
  | null => exact .null
  | bool value =>
    cases value with
    | true => exact .true
    | false => exact .false
  | text s => exact .text s
  | @array items _ ih =>
    cases items with
    | nil => exact .emptyArray blanks_nil
    | cons item items =>
      rw [indented]
      exact .array (spellsItems_body (blanks_newline (level + 1)) (blanks_newline level)
        (by simp [indentedItems]) (by simp [indentedItems]) item items
        (fun i hi => ih i hi (level + 1)))
  | @object fields hkey _ ih =>
    cases fields with
    | nil => exact .emptyObject blanks_nil
    | cons field fields =>
      rw [indented]
      exact .object (spellsFields_body (blanks_newline (level + 1)) blanks_space
        (blanks_newline level) (by simp [indentedFields]) (by simp [indentedFields]) field fields
        hkey (fun f hf => ih f hf (level + 1)))

theorem parse?_toCompact {j : Json} (h : j.IsPlain) : parse? j.toCompact = some j :=
  parse?_of_spells (spells_compact h)

theorem parse?_toPretty {j : Json} (h : j.IsPlain) : parse? j.toPretty = some j :=
  parse?_of_spells (spells_indented h 0)

end AmbientCatalog.Json
