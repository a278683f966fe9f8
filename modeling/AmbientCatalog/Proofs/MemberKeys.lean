import AmbientCatalog.Describe.Classes
import AmbientCatalog.Proofs.Naming
import AmbientCatalog.Proofs.Trimming

/-!
# Members are told apart by their keys

Under one scope two members have the same id exactly if their keys have the same text. The text of a
key is its body, which for a string is what stands between its quotes; a computed key has brackets
around it. So keys of different bodies are told apart, with two exceptions: a string that has more
quotes at the ends of its body loses them too, and a string can spell the brackets of a computed
key.
-/

set_option autoImplicit false

namespace AmbientCatalog

namespace Key

/-- What a key is about: a string without its quotes, a computed key without its brackets. -/
def body : Key → String
  | .ident name => name
  | .string source => String.ofList source.toList.tail.dropLast
  | .verbatim source => source
  | .computed source => source

def isComputed : Key → Bool
  | .ident _ => false
  | .string _ => false
  | .verbatim _ => false
  | .computed _ => true

def IsWritten : Key → Prop
  | .ident name => '[' ∉ name.toList
  | .string source => ∃ quote body, isQuote quote = true ∧
      source = String.ofList (quote :: body ++ [quote])
  | .verbatim source => '[' ∉ source.toList
  | .computed _ => True

def Same (a b : Key) : Prop := a.isComputed = b.isComputed ∧ a.body = b.body

instance (a b : Key) : Decidable (Same a b) :=
  inferInstanceAs (Decidable (a.isComputed = b.isComputed ∧ a.body = b.body))

def IsBare : Key → Prop
  | .string source =>
    (∀ c ∈ source.toList.tail.dropLast.head?, isQuote c = false) ∧
      ∀ c ∈ source.toList.tail.dropLast.getLast?, isQuote c = false
  | .ident _ => True
  | .verbatim _ => True
  | .computed _ => True

/-- The second key is a string that spells the first one, which is computed, with its brackets. -/
def SpelledBy (a b : Key) : Prop :=
  a.isComputed = true ∧ (∃ source, b = .string source) ∧ b.body = "[" ++ a.body ++ "]"

/-- A string is named by its body, less the quotes at the ends of that. -/
theorem text_string {quote : Char} (h : isQuote quote = true) (body : List Char) :
    (Key.string (String.ofList (quote :: body ++ [quote]))).text =
      String.ofList (trimmed isQuote body) := by
  have hquote : ∀ c ∈ [quote], isQuote c = true := by simpa using h
  have hbody := trimmed_append hquote hquote body
  rw [List.singleton_append] at hbody
  rw [text, unquote, String.toList_ofList, ← hbody]
  rfl

variable {a b : Key}

theorem text_eq_body_iff (ha : a.IsWritten) (hc : a.isComputed = false) :
    a.text = a.body ↔ a.IsBare := by
  cases a with
  | ident name => exact iff_of_true rfl trivial
  | verbatim source => exact iff_of_true rfl trivial
  | computed source => simp [isComputed] at hc
  | string source =>
    obtain ⟨quote, body, hquote, rfl⟩ := ha
    rw [text_string hquote, IsBare, ← trimmed_eq_self_iff]
    simp [Key.body, String.ofList_inj]

theorem text_computed (hc : a.isComputed = true) : a.text = "[" ++ a.body ++ "]" := by
  cases a with
  | computed source => rfl
  | _ => simp [isComputed] at hc

theorem SpelledBy.isComputed (h : a.SpelledBy b) : a.isComputed = true ∧ b.isComputed = false := by
  obtain ⟨hc, ⟨source, rfl⟩, -⟩ := h
  exact ⟨hc, rfl⟩

/-- Of the keys that are not computed, only a string can look like one that is. -/
theorem exists_string_of_body (ha : a.IsWritten) (hc : a.isComputed = false) {source : String}
    (h : a.body = "[" ++ source ++ "]") : ∃ written, a = .string written := by
  have hbracket : '[' ∈ a.body.toList := by simp [h]
  cases a with
  | string written => exact ⟨written, rfl⟩
  | computed _ => simp [Key.isComputed] at hc
  | ident name => exact absurd hbracket ha
  | verbatim written => exact absurd hbracket ha

theorem text_computed_eq_iff (hc : a.isComputed = true) (hb : b.IsWritten)
    (hc' : b.isComputed = false) (hbare : b.IsBare) : a.text = b.text ↔ a.SpelledBy b := by
  rw [text_computed hc, (text_eq_body_iff hb hc').mpr hbare]
  exact ⟨fun h => ⟨hc, exists_string_of_body hb hc' h.symm, h.symm⟩, fun h => h.2.2.symm⟩

/-- Of keys without further quotes, different ones have different texts, unless a string spells the
brackets of a computed key. -/
theorem text_eq_iff (ha : a.IsWritten) (hb : b.IsWritten) (hbare : a.IsBare) (hbare' : b.IsBare) :
    a.text = b.text ↔ a.Same b ∨ a.SpelledBy b ∨ b.SpelledBy a := by
  cases hc : a.isComputed <;> cases hc' : b.isComputed
  · rw [(text_eq_body_iff ha hc).mpr hbare, (text_eq_body_iff hb hc').mpr hbare']
    simp [Same, SpelledBy, hc, hc']
  · rw [eq_comm, text_computed_eq_iff hc' ha hc hbare]
    simp [Same, SpelledBy, hc, hc']
  · rw [text_computed_eq_iff hc hb hc' hbare']
    simp [Same, SpelledBy, hc, hc']
  · rw [text_computed hc, text_computed hc']
    have hspelled : ¬a.SpelledBy b := fun h => by simp [h.isComputed.2] at hc'
    have hspelled' : ¬b.SpelledBy a := fun h => by simp [h.isComputed.2] at hc
    simp [Same, hc, hc', hspelled, hspelled']

end Key

def Member.key? : Member → Option Key
  | .property key _ _ _ => some key
  | .method key _ _ => some key
  | .getter key _ => some key
  | .setter key _ => some key
  | .call _ => none
  | .construct _ => none
  | .index _ _ _ _ => none

def ClassMember.key? : ClassMember → Option (Key × Bool)
  | .method _ key flags _ => some (key, flags.isStatic)
  | .property key flags _ => some (key, flags.isStatic)
  | .constructor _ _ => none
  | .index _ _ _ _ => none
  | .silent => none

inductive Keyed (scope : String) (key : Key) : Node → Prop where
  | member (member : Member) (isStatic : Bool) (h : member.key? = some key) :
      Keyed scope key (member.node scope isStatic)
  | classMember (member : ClassMember) (className : String) (isStatic : Bool) (node : Node)
      (h : member.key? = some (key, isStatic))
      (hscope : ClassMember.scope className isStatic = scope)
      (hnode : member.node? className = some node) : Keyed scope key node

theorem Member.describe_id {member : Member} {key : Key} (h : member.key? = some key)
    (scope : String) :
    (described (member.describe scope)).id = Name.qualify key.text scope := by
  cases member with
  | property written isOptional isReadonly type => obtain rfl := Option.some.inj h; rfl
  | method written isOptional signature =>
    obtain rfl := Option.some.inj h
    exact (Signature.described_id _ signature).1
  | getter written type => obtain rfl := Option.some.inj h; rfl
  | setter written param => obtain rfl := Option.some.inj h; rfl
  | call signature => simp [key?] at h
  | construct signature => simp [key?] at h
  | index isReadonly isStatic params type => simp [key?] at h

theorem ClassMember.node_id {member : ClassMember} {key : Key} {isStatic : Bool} {node : Node}
    {className : String} (h : member.key? = some (key, isStatic))
    (hnode : member.node? className = some node) :
    node.id = Name.qualify key.text (ClassMember.scope className isStatic) := by
  cases member with
  | method form written flags signature =>
    obtain ⟨rfl, rfl⟩ := Prod.mk.inj (Option.some.inj h)
    obtain rfl := Option.some.inj hnode
    exact (Signature.described_id _ signature).1
  | property written flags type =>
    obtain ⟨rfl, rfl⟩ := Prod.mk.inj (Option.some.inj h)
    obtain rfl := Option.some.inj hnode
    rfl
  | constructor access params => simp [key?] at h
  | index isReadonly isStatic params type => simp [key?] at h
  | silent => simp [key?] at h

theorem Keyed.id_eq {scope : String} {key : Key} {node : Node} (h : Keyed scope key node) :
    node.id = Name.qualify key.text scope := by
  cases h with
  | member member isStatic hkey =>
    cases isStatic with
    | false => exact Member.describe_id hkey scope
    | true => exact Member.describe_id hkey scope
  | classMember member className isStatic node hkey hscope hnode =>
    rw [ClassMember.node_id hkey hnode, hscope]

/-- Members under one scope have the same id exactly if their keys have the same text, and keys
without further quotes have it exactly if they are the same or one spells the other with its
brackets. -/
theorem keys_apart {scope : String} {a b : Key} {x y : Node} (hx : Keyed scope a x)
    (hy : Keyed scope b y) (ha : a.IsWritten) (hb : b.IsWritten) :
    (x.id = y.id ↔ a.text = b.text) ∧
    (a.IsBare → b.IsBare → (x.id = y.id ↔ a.Same b ∨ a.SpelledBy b ∨ b.SpelledBy a)) ∧
    (a.isComputed = false → (x.id = Name.qualify a.body scope ↔ a.IsBare)) ∧
    ∀ quote body, isQuote quote = true → a = .string (String.ofList (quote :: body ++ [quote])) →
      x.id = Name.qualify (String.ofList (trimmed isQuote body)) scope := by
  rw [hx.id_eq, hy.id_eq]
  refine ⟨Name.qualify_inj, fun hbare hbare' => ?_, fun hc => ?_, fun quote body hquote he => ?_⟩
  · rw [Name.qualify_inj, Key.text_eq_iff ha hb hbare hbare']
  · rw [Name.qualify_inj, Key.text_eq_body_iff ha hc]
  · rw [he, Key.text_string hquote]

def textProperty (key : Key) : Member := .property key false false (some (.keyword .string))

theorem keys_apart_iterator :
    ((textProperty (.string "\"next\"")).node "pair" true).id ≠
        ((textProperty (.computed "Symbol.iterator")).node "pair" true).id ∧
      ((textProperty (.string "\"next\"")).node "pair" true).id = "pair.next" := by
  have hwritten : (Key.string "\"next\"").IsWritten := ⟨'"', ['n', 'e', 'x', 't'], rfl, rfl⟩
  have hbare : (Key.string "\"next\"").IsBare := by simp [Key.IsBare, isQuote]
  obtain ⟨-, hsame, hbody, -⟩ := keys_apart
    (Keyed.member (textProperty (.string "\"next\"")) true rfl)
    (Keyed.member (textProperty (.computed "Symbol.iterator")) true rfl)
    hwritten trivial
  refine ⟨fun hid => ?_, (hbody rfl).mpr hbare⟩
  rcases (hsame hbare trivial).mp hid with h | h | h
  · exact absurd h.1 (by decide)
  · exact absurd h.1 (by decide)
  · exact absurd h.2.2 (by decide)

/-- The string `"'a'"` is named `a`, like the name `a`, though its body is `'a'`. -/
theorem keys_apart_quoted :
    ¬ ∀ (scope : String) (a b : Key) (x y : Node), Keyed scope a x → Keyed scope b y →
      a.IsWritten → b.IsWritten → ¬a.Same b → x.id ≠ y.id := by
  intro h
  have hquoted : (Key.string "\"'a'\"").IsWritten := ⟨'"', ['\'', 'a', '\''], rfl, rfl⟩
  have hplain : (Key.ident "a").IsWritten := by simp [Key.IsWritten]
  have hdiffer : ¬(Key.string "\"'a'\"").Same (.ident "a") := by decide
  exact h "pair" _ _ _ _ (.member (textProperty (.string "\"'a'\"")) true rfl)
    (.member (textProperty (.ident "a")) true rfl) hquoted hplain hdiffer rfl

/-- The string `"[a]"` is named like the computed key `[a]`. -/
example : (Key.computed "a").SpelledBy (.string "\"[a]\"") ∧
    ((textProperty (.computed "a")).node "pair" true).id =
      ((textProperty (.string "\"[a]\"")).node "pair" true).id :=
  ⟨⟨rfl, ⟨_, rfl⟩, rfl⟩, rfl⟩

end AmbientCatalog
