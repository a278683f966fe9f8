import AmbientCatalog.Heritage
import Mathlib.Data.List.Infix
import Mathlib.Tactic.SplitIfs

/-!
# Names of members

A member is named by joining its key onto a scope. Here are the facts about joining and moving names
on which everything else rests: a name is empty only if both of its parts are, the scope of a joined
name can be read off again, and describing a member under one scope and moving it to another gives
what describing it there gives.
-/

set_option autoImplicit false

namespace AmbientCatalog

namespace Name

@[simp] theorem qualify_outermost (name : String) : qualify name "" = name := rfl

@[simp] theorem qualify_empty (scope : String) : qualify "" scope = scope := by
  by_cases h : scope = ""
  · simp [qualify, h]
  · simp [qualify, h]

theorem qualify_ne_empty {name : String} (h : name ≠ "") (scope : String) :
    qualify name scope ≠ "" := by
  unfold qualify
  split_ifs with hs
  · exact h
  · intro he
    have := congrArg String.length he
    simp at this

theorem qualify_ne_empty_of_scope {scope : String} (h : scope ≠ "") (name : String) :
    qualify name scope ≠ "" := by
  by_cases hn : name = ""
  · simpa [hn] using h
  · exact qualify_ne_empty hn scope

theorem qualify_assoc (a b c : String) : qualify (qualify a b) c = qualify a (qualify b c) := by
  by_cases ha : a = ""
  · simp [ha]
  by_cases hb : b = ""
  · simp [hb]
  by_cases hc : c = ""
  · simp [hc]
  · have hne := qualify_ne_empty hb c
    have hne' := qualify_ne_empty ha b
    simp [qualify, ha, hb, hc, String.append_assoc] at hne hne' ⊢

theorem toList_qualify {name scope : String} (hn : name ≠ "") (hs : scope ≠ "") :
    (qualify name scope).toList = scope.toList ++ '.' :: name.toList := by
  simp [qualify, hn, hs]

theorem beforeLastDot_none {cs : List Char} (h : '.' ∉ cs) : beforeLastDot cs = none := by
  induction cs with
  | nil => rfl
  | cons c cs ih =>
    obtain ⟨hc, hcs⟩ := not_or.mp (mt List.mem_cons.mpr h)
    simp [beforeLastDot, ih hcs, Ne.symm hc]

theorem beforeLastDot_append (front : List Char) {cs : List Char} (h : '.' ∉ cs) :
    beforeLastDot (front ++ '.' :: cs) = some front := by
  induction front with
  | nil => simp [beforeLastDot, beforeLastDot_none h]
  | cons c front ih => simp [beforeLastDot, ih]

theorem parent_qualify {name : String} (h : IsIdentifier name) (scope : String) :
    parent (qualify name scope) = scope := by
  by_cases hs : scope = ""
  · simp [hs, parent, beforeLastDot_none h.2]
  · simp [parent, toList_qualify h.1 hs, beforeLastDot_append _ h.2]

theorem qualify_inj {name name' scope : String} :
    qualify name scope = qualify name' scope ↔ name = name' := by
  refine ⟨fun h => ?_, fun h => by rw [h]⟩
  by_cases hs : scope = ""
  · simpa [hs] using h
  have hlonger : ∀ {other : String}, other ≠ "" → qualify other scope ≠ scope := by
    intro other hother he
    have := congrArg (List.length ∘ String.toList) he
    simp [toList_qualify hother hs] at this
  by_cases hn : name = ""
  · by_cases hn' : name' = ""
    · rw [hn, hn']
    · exact absurd (by simpa [hn] using h.symm) (hlonger hn')
  · by_cases hn' : name' = ""
    · exact absurd (by simpa [hn'] using h) (hlonger hn)
    · have hl := congrArg String.toList h
      rw [toList_qualify hn hs, toList_qualify hn' hs] at hl
      exact String.toList_inj.mp (by simpa using hl)

theorem qualify_injective {name name' scope scope' : String} (h : IsIdentifier name)
    (h' : IsIdentifier name') (he : qualify name scope = qualify name' scope') :
    name = name' ∧ scope = scope' := by
  have hs : scope = scope' := by
    rw [← parent_qualify h scope, he, parent_qualify h']
  subst hs
  exact ⟨qualify_inj.mp he, rfl⟩

def IsTail (tail : String) : Prop := tail = "" ∨ ∃ rest, tail.toList = '.' :: rest

/-- Moving a name keeps its tail. -/
theorem rebase_append {tail : String} (h : IsTail tail) (source target : String) :
    rebase source target (source ++ tail) = target ++ tail := by
  by_cases hs : source = target
  · rw [rebase, if_pos hs, hs]
  · rw [rebase, if_neg hs, String.toList_append, List.isPrefixOf?_eq_some_iff_append_eq.mpr rfl]
    rcases h with rfl | ⟨rest, hrest⟩
    · simp
    · rw [hrest]
      exact congrArg (target ++ ·) (by rw [← hrest, String.ofList_toList])

/-- Moving a name made under one scope gives the name made under the other. -/
theorem rebase_qualify {source target : String} (hs : source ≠ "") (ht : target ≠ "")
    (name : String) : rebase source target (qualify name source) = qualify name target := by
  by_cases hn : name = ""
  · rw [hn, qualify_empty, qualify_empty]
    simpa using rebase_append (.inl rfl) source target
  · have htail : IsTail ("." ++ name) := .inr ⟨name.toList, by simp⟩
    simpa [qualify, hs, ht, hn, String.append_assoc] using rebase_append htail source target

theorem outermost_mem_enclosing (scope : String) : "" ∈ enclosing scope := by
  induction scope using enclosing.induct with
  | case1 => rw [enclosing]; simp
  | case2 scope h ih =>
    rw [enclosing, if_neg h]
    exact List.mem_cons_of_mem _ ih

theorem startsWith_of_qualify {word label scope : String} (hw : '.' ∉ word.toList)
    (hs : scope ≠ "") (h : word.toList <+: (qualify label scope).toList) :
    word.toList <+: scope.toList := by
  by_cases hl : label = ""
  · simpa [hl] using h
  · rw [toList_qualify hl hs, List.append_cons] at h
    rcases List.prefix_or_prefix_of_prefix h (List.prefix_append _ _) with hp | hp
    · rcases List.prefix_concat_iff.mp hp with heq | hp
      · exact absurd (heq ▸ by simp) hw
      · exact hp
    · exact absurd (hp.subset (by simp)) hw

end Name

theorem Role.scope_ne_empty (role : Role) {binding : String} (h : binding ≠ "") :
    role.scope binding ≠ "" := by
  cases role with
  | ownType => exact h
  | instanceSide => exact Name.qualify_ne_empty_of_scope h _
  | constructorSide => exact h

theorem Node.placeholder_isPlaceholder (name : String) :
    (Node.placeholder name).isPlaceholder = true := by
  simp [Node.isPlaceholder, Node.placeholder, List.isPrefixOf_iff_prefix]

def Member.node (scope : String) (isStatic : Bool) (member : Member) : Node :=
  if isStatic then (described (member.describe scope)).tagged .isStatic
  else described (member.describe scope)

theorem Member.resolve_ok {scope : String} (h : scope ≠ "") (isStatic : Bool) (member : Member) :
    member.resolve scope isStatic = .ok (member.node scope isStatic) := by
  simp [Member.resolve, h, Member.node]

theorem Member.mapM_resolve_ok {scope : String} (h : scope ≠ "") (isStatic : Bool)
    (members : List Member) :
    members.mapM (Member.resolve scope isStatic) =
      .ok (members.map (Member.node scope isStatic)) := by
  induction members with
  | nil => rfl
  | cons member members ih =>
    rw [List.mapM_cons, Member.resolve_ok h, ih]
    rfl

@[simp] theorem Node.rebase_tagged (source target : String) (node : Node) (t : Tag) :
    (node.tagged t).rebase source target = (node.rebase source target).tagged t := rfl

def Member.label : Member → String
  | .property key _ _ _ => key.text
  | .method key _ _ => key.text
  | .call _ => ""
  | .construct _ => constructName
  | .index _ _ _ _ => indexName
  | .getter key _ => key.text
  | .setter key _ => key.text

theorem Signature.described_id (base : Node) (signature : Signature) :
    (described (signature.describe base)).id = base.id ∧
      (described (signature.describe base)).name = base.name ∧
      (described (signature.describe base)).kind = base.kind := by
  obtain ⟨generics, params, result⟩ := signature
  exact ⟨rfl, rfl, rfl⟩

/-- Only the id and the name of a member depend on its scope. -/
theorem Member.describe_named (member : Member) : ∃ body : Node, ∀ scope : String, scope ≠ "" →
    described (member.describe scope) =
      { body with
        id := Name.qualify member.label scope
        name := Name.qualify member.label scope } := by
  cases member with
  | property key isOptional isReadonly type =>
    exact ⟨described ((Member.property key isOptional isReadonly type).describe ""), fun _ _ => rfl⟩
  | method key isOptional signature =>
    obtain ⟨generics, params, result⟩ := signature
    exact ⟨described ((Member.method key isOptional (.mk generics params result)).describe ""),
      fun _ _ => rfl⟩
  | call signature =>
    obtain ⟨generics, params, result⟩ := signature
    refine ⟨described (Signature.describe { id := "", kind := .callSignature }
      (.mk generics params result)), fun scope h => ?_⟩
    simp only [described, Member.describe, if_neg h, Member.label, Name.qualify_empty]
    rfl
  | construct signature =>
    obtain ⟨generics, params, result⟩ := signature
    exact ⟨described ((Member.construct (.mk generics params result)).describe ""),
      fun _ _ => rfl⟩
  | index isReadonly isStatic params type =>
    exact ⟨described ((Member.index isReadonly isStatic params type).describe ""), fun _ _ => rfl⟩
  | getter key type => exact ⟨described ((Member.getter key type).describe ""), fun _ _ => rfl⟩
  | setter key param => exact ⟨described ((Member.setter key param).describe ""), fun _ _ => rfl⟩

theorem Member.rebase_describe {source target : String} (hs : source ≠ "") (ht : target ≠ "")
    (member : Member) :
    (described (member.describe source)).rebase source target =
      described (member.describe target) := by
  obtain ⟨body, hbody⟩ := member.describe_named
  rw [hbody source hs, hbody target ht]
  simp [Node.rebase, Name.rebase_qualify hs ht]

theorem Member.rebase_node {source target : String} (hs : source ≠ "") (ht : target ≠ "")
    (isStatic : Bool) (member : Member) :
    (member.node source isStatic).rebase source target = member.node target isStatic := by
  cases isStatic with
  | false => simpa [Member.node] using Member.rebase_describe hs ht member
  | true => simpa [Member.node] using
      congrArg (fun node => node.tagged .isStatic) (Member.rebase_describe hs ht member)

theorem Member.node_id {scope : String} (h : scope ≠ "") (isStatic : Bool) (member : Member) :
    (member.node scope isStatic).id = Name.qualify member.label scope := by
  obtain ⟨body, hbody⟩ := member.describe_named
  cases isStatic with
  | false => simp [Member.node, hbody scope h]
  | true => simp [Member.node, hbody scope h, Node.tagged]

theorem Member.node_name {scope : String} (h : scope ≠ "") (isStatic : Bool) (member : Member) :
    (member.node scope isStatic).name = (member.node scope isStatic).id := by
  obtain ⟨body, hbody⟩ := member.describe_named
  cases isStatic with
  | false => simp [Member.node, hbody scope h]
  | true => simp [Member.node, hbody scope h, Node.tagged]

end AmbientCatalog
