import AmbientCatalog.Site
import AmbientCatalog.Syntax.Grammar.Statements

/-!
# The names a parser gives

Every word that a cursor stands at is an identifier, so every name that the grammar takes for a
declaration is one. A parser gives a property if whatever it reads has that property; this is passed
on from the parts of a rule to the rule, and from one depth of the grammar to the next.
-/

set_option autoImplicit false

namespace AmbientCatalog

def Decl.IsNamed (decl : Decl) : Prop :=
  ∀ nest specifier scope start, WellNamed (decl.sites nest specifier scope start)

def Content.IsNamed (content : Content) : Prop :=
  ∀ nest specifier scope start, WellNamed (content.sites nest specifier scope start)

def Item.IsNamed (item : Item) : Prop :=
  ∀ nest specifier scope, WellNamed (item.sites nest specifier scope)

theorem wellNamed_sitesOf {items : List Item} (h : ∀ item ∈ items, item.IsNamed) (nest : Nesting)
    (specifier scope : String) : WellNamed (sitesOf nest specifier scope items) := by
  induction items with
  | nil => simp [sitesOf, WellNamed]
  | cons item items ih =>
    intro site hsite
    rw [sitesOf] at hsite
    rcases List.mem_append.mp hsite with hsite | hsite
    · exact h item List.mem_cons_self nest specifier scope site hsite
    · exact ih (fun other hother => h other (List.mem_cons_of_mem _ hother)) site hsite

theorem Decl.isNamed_leaf {decl : Decl}
    (hsites : ∀ nest specifier scope start,
      decl.sites nest specifier scope start = [⟨specifier, scope, start, some decl⟩])
    (h : ∀ specifier scope start, ∀ name ∈ (Site.mk specifier scope start (some decl)).identifiers,
      Name.IsIdentifier name) : decl.IsNamed := by
  intro nest specifier scope start site hsite
  rw [hsites] at hsite
  obtain rfl := List.mem_singleton.mp hsite
  exact h specifier scope start

namespace Syntax

namespace Parser

variable {α β : Type}

def Gives (p : Parser α) (P : α → Prop) : Prop := ∀ c a c', p c = some (a, c') → P a

theorem gives_pure {P : α → Prop} {a : α} (h : P a) : Gives (pure a) P := by
  intro c b c' hb
  obtain ⟨rfl, -⟩ := Prod.mk.inj (Option.some.inj hb)
  exact h

theorem gives_failure (P : α → Prop) : Gives failure P := by
  intro c a c' h
  exact absurd h (by simp [failure, StateT.failure])

theorem gives_bind {p : Parser α} {f : α → Parser β} {Q : α → Prop} {P : β → Prop}
    (hp : Gives p Q) (hf : ∀ a, Q a → Gives (f a) P) : Gives (p >>= f) P := by
  intro c b c' h
  obtain ⟨⟨a, middle⟩, ha, hb⟩ := Option.bind_eq_some_iff.mp h
  exact hf a (hp c a middle ha) middle b c' hb

theorem gives_after {p : Parser α} {f : α → Parser β} {P : β → Prop}
    (hf : ∀ a, Gives (f a) P) : Gives (p >>= f) P :=
  gives_bind (fun _ _ _ _ => trivial) (fun a (_ : True) => hf a)

theorem gives_ite {c : Prop} [Decidable c] {p q : Parser α} {P : α → Prop} (hp : Gives p P)
    (hq : Gives q P) : Gives (if c then p else q) P := by
  split
  · exact hp
  · exact hq

theorem gives_loop {step : Parser (Option α)} {P : α → Prop}
    (h : Gives step (fun found => ∀ a, found = some a → P a)) (n : Nat) :
    Gives (loop step n) (fun items => ∀ a ∈ items, P a) := by
  induction n with
  | zero => exact gives_pure (by simp)
  | succ n ih =>
    refine gives_bind h (fun found hfound => ?_)
    cases found with
    | none => exact gives_pure (by simp)
    | some a =>
      refine gives_bind ih (fun items hitems => gives_pure ?_)
      intro b hb
      rcases List.mem_cons.mp hb with rfl | hb
      · exact hfound _ rfl
      · exact hitems b hb

theorem gives_many {step : Parser (Option α)} {P : α → Prop}
    (h : Gives step (fun found => ∀ a, found = some a → P a)) :
    Gives (many step) (fun items => ∀ a ∈ items, P a) :=
  gives_after (fun c => gives_loop h (c.size + 1))

theorem gives_separated {sign : String} {item : Parser α} {P : α → Prop} (h : Gives item P) :
    Gives (separated sign item) (fun items => ∀ a ∈ items, P a) := by
  have hstep : Gives (do if ← eat sign then return some (← item) else return none)
      (fun found => ∀ a, found = some a → P a) := by
    refine gives_after (fun taken => ?_)
    cases taken with
    | true =>
      refine gives_bind h (fun a ha => gives_pure ?_)
      rintro b ⟨⟩
      exact ha
    | false => exact gives_pure (by simp)
  refine gives_bind h (fun first hfirst => ?_)
  refine gives_bind (gives_many hstep) (fun others hothers => gives_pure ?_)
  intro a ha
  rcases List.mem_cons.mp ha with rfl | ha
  · exact hfirst
  · exact hothers a ha

theorem gives_anyWord : Gives anyWord Name.IsIdentifier := by
  rintro ⟨typed, size, token, start, source, stop, rest, newline, previousStop, fits⟩ name c' h
  cases token with
  | word found =>
    obtain ⟨rfl, -⟩ := Prod.mk.inj (Option.some.inj h)
    exact fits found rfl
  | _ =>
    have hnone : (none : Option (String × Cursor)) = some (name, c') := h
    exact absurd hnone (by simp)

theorem gives_name : Gives name Name.IsIdentifier :=
  gives_after (fun _ => gives_after (fun _ => gives_anyWord))

end Parser

open AmbientCatalog.Syntax.Parser

structure Grammar.Named (g : Grammar) : Prop where
  binding : Gives g.binding (fun param =>
    ∀ name isOptional type, param = .ident name isOptional type → Name.IsIdentifier name)
  item : ∀ top, Gives (g.item top) Item.IsNamed

namespace Grammar

variable {g : Grammar}

theorem gives_declarator (hg : g.Named) (allowIn : Bool) :
    Gives (g.declarator allowIn) (fun declarator =>
      ∀ name, declarator.name? = some name → Name.IsIdentifier name) := by
  refine gives_bind hg.binding (fun target htarget => gives_after (fun isTyped => ?_))
  refine gives_ite (gives_after (fun _ => ?_)) (gives_after (fun _ => ?_))
  all_goals
    refine gives_after (fun type => gives_after (fun taken => ?_))
    refine gives_ite (gives_after (fun _ => ?_)) ?_
  all_goals
    cases target with
    | ident name isOptional type =>
      refine gives_pure ?_
      rintro _ ⟨⟩
      exact htarget name isOptional type rfl
    | _ => exact gives_pure (by simp [Declarator.name?])

theorem gives_variableDecl (hg : g.Named) (isDeclared : Bool) :
    Gives (g.variableDecl isDeclared) (fun decl => (Decl.variableDecl decl).IsNamed) := by
  refine gives_after (fun word => ?_)
  refine gives_bind (gives_separated (gives_declarator hg true)) (fun declarators h => ?_)
  refine gives_after (fun _ => gives_pure ?_)
  refine Decl.isNamed_leaf (fun _ _ _ _ => rfl) (fun _ _ _ name hname => ?_)
  obtain ⟨declarator, hmem, hdeclared⟩ := List.mem_filterMap.mp hname
  exact h declarator hmem name hdeclared

theorem gives_functionDecl (isDeclared : Bool) :
    Gives (g.functionDecl isDeclared) (fun decl => (Decl.functionDecl decl).IsNamed) := by
  refine gives_after (fun _ => gives_after (fun _ => ?_))
  refine gives_bind gives_name (fun name h => ?_)
  refine gives_after (fun _ => gives_after (fun _ => gives_pure ?_))
  refine Decl.isNamed_leaf (fun _ _ _ _ => rfl) (fun _ _ _ other hother => ?_)
  exact List.mem_singleton.mp hother ▸ h

theorem gives_classDecl (isAbstract isDeclared : Bool) :
    Gives (g.classDecl isAbstract isDeclared) (fun decl => (Decl.classDecl decl).IsNamed) := by
  refine gives_after (fun _ => gives_bind gives_name (fun name h => ?_))
  refine gives_after (fun _ => gives_after (fun _ => gives_after (fun _ => ?_)))
  refine gives_after (fun _ => gives_after (fun _ => gives_pure ?_))
  refine Decl.isNamed_leaf (fun _ _ _ _ => rfl) (fun _ _ _ other hother => ?_)
  exact List.mem_singleton.mp hother ▸ h

theorem gives_interfaceTail :
    Gives g.interfaceTail (fun decl => (Decl.interfaceDecl decl).IsNamed) := by
  refine gives_bind gives_name (fun name h => gives_after (fun _ => gives_after (fun _ => ?_)))
  have hnamed : ∀ bases members, (Decl.interfaceDecl ⟨name, bases, members⟩).IsNamed := by
    intro bases members
    refine Decl.isNamed_leaf (fun _ _ _ _ => rfl) (fun _ _ _ other hother => ?_)
    exact List.mem_singleton.mp hother ▸ h
  refine gives_ite (gives_after (fun _ => ?_)) (gives_after (fun _ => ?_))
  all_goals exact gives_after (fun _ => gives_pure (hnamed _ _))

theorem isNamed_nothing {decl : Decl}
    (hsites : ∀ nest specifier scope start,
      decl.sites nest specifier scope start = [⟨specifier, scope, start, some decl⟩])
    (h : ∀ specifier scope start, (Site.mk specifier scope start (some decl)).identifiers = []) :
    decl.IsNamed :=
  Decl.isNamed_leaf hsites (by simp [h])

theorem gives_aliasTail : Gives g.aliasTail Decl.IsNamed := by
  have hnamed : ∀ name type, (Decl.aliasDecl name type).IsNamed := fun _ _ =>
    isNamed_nothing (fun _ _ _ _ => rfl) (fun _ _ _ => rfl)
  refine gives_after (fun _ => gives_after (fun _ => gives_after (fun _ => ?_)))
  refine gives_after (fun _ => gives_after (fun _ => ?_))
  refine gives_ite (gives_after (fun _ => gives_after (fun _ => ?_)))
    (gives_after (fun _ => ?_))
  all_goals exact gives_after (fun _ => gives_pure (hnamed _ _))

theorem gives_items (hg : g.Named) (top : Bool) (atEnd : Parser Bool) :
    Gives (many do if ← atEnd then return none else return some (← g.item top))
      (fun items => ∀ item ∈ items, item.IsNamed) := by
  refine gives_many (gives_after (fun _ => gives_ite (gives_pure (by simp)) ?_))
  refine gives_bind (hg.item top) (fun item h => gives_pure ?_)
  rintro _ ⟨⟩
  exact h

theorem gives_block (hg : g.Named) (top : Bool) :
    Gives (g.block top) (fun items => ∀ item ∈ items, item.IsNamed) := by
  refine gives_after (fun _ => gives_bind (gives_items hg top _) (fun items h => ?_))
  exact gives_after (fun _ => gives_pure h)

theorem gives_namespaceBody (hg : g.Named) (n : Nat) :
    Gives (g.namespaceBody n) (fun body => ∀ parts : List String,
      (∀ part ∈ parts, Name.IsIdentifier part) →
        (∀ part ∈ (body.flatten parts).1, Name.IsIdentifier part) ∧
        ∀ item ∈ (body.flatten parts).2, item.IsNamed) := by
  have hblock : Gives (do return NamespaceBody.block (← g.block true))
      (fun body => ∀ parts : List String, (∀ part ∈ parts, Name.IsIdentifier part) →
        (∀ part ∈ (body.flatten parts).1, Name.IsIdentifier part) ∧
        ∀ item ∈ (body.flatten parts).2, item.IsNamed) :=
    gives_bind (gives_block hg true)
      (fun items hitems => gives_pure (fun parts hparts => ⟨hparts, hitems⟩))
  induction n with
  | zero => exact hblock
  | succ n ih =>
    refine gives_after (fun taken => gives_ite ?_ hblock)
    refine gives_bind gives_name (fun part hpart => ?_)
    refine gives_bind ih (fun body hbody => gives_pure fun parts hparts => ?_)
    refine hbody (parts ++ [part]) fun other hother => ?_
    rcases List.mem_append.mp hother with hother | hother
    · exact hparts other hother
    · rwa [List.mem_singleton.mp hother]

theorem gives_namespaceTail (hg : g.Named) (isDeclared : Bool) :
    Gives (g.namespaceTail isDeclared) Decl.IsNamed := by
  refine gives_bind gives_name (fun part hpart => ?_)
  refine gives_after (fun c => gives_bind (gives_namespaceBody hg _) (fun body hbody => ?_))
  obtain ⟨hparts, hitems⟩ := hbody [part] (by simpa using hpart)
  refine gives_pure ?_
  intro nest specifier scope start site hsite
  rcases List.mem_cons.mp hsite with rfl | hsite
  · exact hparts
  · exact wellNamed_sitesOf hitems nest specifier _ site hsite

theorem gives_outsideModule : Gives g.outsideModule Decl.IsNamed := by
  have hnamed : Decl.outsideModule.IsNamed :=
    isNamed_nothing (fun _ _ _ _ => rfl) (fun _ _ _ => rfl)
  refine gives_after (fun _ => gives_after (fun _ => gives_after (fun _ => ?_)))
  refine gives_ite ?_ ?_
  all_goals exact gives_after (fun _ => gives_pure hnamed)

theorem gives_globalTail (hg : g.Named) : Gives g.globalTail Decl.IsNamed := by
  refine gives_after (fun _ => gives_ite ?_ (gives_after (fun _ => gives_pure ?_)))
  · refine gives_bind (gives_block hg true) (fun items hitems => gives_pure ?_)
    intro nest specifier scope start
    exact wellNamed_sitesOf hitems nest specifier scope
  · exact isNamed_nothing (fun _ _ _ _ => rfl) (fun _ _ _ => rfl)

theorem gives_typedDecl (hg : g.Named) (isDeclared : Bool) :
    Gives (g.typedDecl isDeclared) Decl.IsNamed := by
  refine gives_after (fun word => ?_)
  split
  · exact gives_bind (gives_classDecl true isDeclared) (fun _ h => gives_pure h)
  · exact gives_bind gives_interfaceTail (fun _ h => gives_pure h)
  · exact gives_aliasTail
  · refine gives_after (fun _ => gives_pure ?_)
    exact isNamed_nothing (fun _ _ _ _ => rfl) (fun _ _ _ => rfl)
  · exact gives_namespaceTail hg isDeclared
  · exact gives_after (fun _ => gives_ite gives_outsideModule (gives_namespaceTail hg isDeclared))
  · exact gives_failure _

theorem gives_declarationAfter (hg : g.Named) (isDeclared : Bool) :
    Gives (g.declarationAfter isDeclared) Decl.IsNamed := by
  have hfunction : Gives (do return .functionDecl (← g.functionDecl isDeclared)) Decl.IsNamed :=
    gives_bind (gives_functionDecl isDeclared) (fun _ h => gives_pure h)
  have hvariable : Gives (do return .variableDecl (← g.variableDecl isDeclared)) Decl.IsNamed :=
    gives_bind (gives_variableDecl hg isDeclared) (fun _ h => gives_pure h)
  have htyped := gives_typedDecl hg isDeclared
  refine gives_after (fun token => ?_)
  split
  · exact hfunction
  · exact gives_bind (gives_classDecl false isDeclared) (fun _ h => gives_pure h)
  · refine gives_after (fun _ => gives_after (fun _ => gives_ite ?_ hvariable))
    exact gives_after (fun _ => htyped)
  · refine gives_ite hvariable (gives_after (fun _ => ?_))
    refine gives_ite (gives_after (fun _ => hfunction)) ?_
    refine gives_after (fun _ => gives_ite (gives_after (fun _ => gives_globalTail hg)) ?_)
    exact gives_after (fun _ => gives_ite htyped (gives_failure _))
  · exact gives_failure _

theorem gives_typedStatement (hg : g.Named) (word : String) :
    Gives (g.typedStatement word) Decl.IsNamed := by
  unfold typedStatement
  split
  · exact gives_after (fun _ => gives_declarationAfter hg true)
  · exact gives_after (fun _ => gives_globalTail hg)
  · exact gives_typedDecl hg false

theorem gives_exported (hg : g.Named) (isDeclared : Bool) :
    Gives (do return Content.exported (← g.declarationAfter isDeclared)) Content.IsNamed :=
  gives_bind (gives_declarationAfter hg isDeclared) (fun _ h => gives_pure h)

theorem gives_plain {p : Parser Decl} (h : Gives p Decl.IsNamed) :
    Gives (do return Content.plain (← p)) Content.IsNamed :=
  gives_bind h (fun _ hdecl => gives_pure hdecl)

theorem isNamed_other : Content.other.IsNamed := by
  intro nest specifier scope start site hsite
  obtain rfl := List.mem_singleton.mp hsite
  simp [Site.identifiers]

theorem gives_other (p : Parser Unit) : Gives (afterOtherContent p) Content.IsNamed :=
  gives_after (fun _ => gives_pure isNamed_other)

theorem gives_exportContent (hg : g.Named) : Gives g.exportContent Content.IsNamed := by
  refine gives_after (fun _ => gives_after (fun _ => gives_after (fun token => ?_)))
  split
  · exact gives_other _
  · exact gives_other _
  · exact gives_after (fun _ => gives_after (fun _ => gives_after (fun _ => gives_other _)))
  · exact gives_after (fun _ => gives_exported hg false)
  · exact gives_after (fun _ => gives_other _)
  · refine gives_ite ?_ (gives_ite ?_ (gives_ite ?_ (gives_ite ?_ (gives_exported hg false))))
    · exact gives_after (fun _ => gives_after (fun _ => gives_after (fun _ => gives_other _)))
    · exact gives_after (fun _ => gives_other _)
    · exact gives_after (fun _ => gives_other _)
    · exact gives_after (fun _ => gives_exported hg true)
  · exact gives_failure _

theorem gives_wordStatement (hg : g.Named) (top : Bool) (word : String) :
    Gives (g.wordStatement top word) Content.IsNamed := by
  have hplain := gives_plain (gives_declarationAfter hg false)
  refine gives_after (fun next => ?_)
  split
  all_goals try exact hplain
  all_goals try exact gives_other _
  · exact gives_after (fun _ => gives_after (fun _ => gives_exportContent hg))
  · exact gives_ite (gives_other _) (gives_after (fun _ => gives_other _))
  · refine gives_ite hplain (gives_ite hplain (gives_after (fun _ => gives_ite ?_ ?_)))
    · refine gives_after (fun _ => gives_pure ?_)
      exact isNamed_nothing (fun _ _ _ _ => rfl) (fun _ _ _ => rfl)
    · refine gives_after (fun _ => gives_after (fun _ => gives_ite ?_ (gives_other _)))
      exact gives_plain (gives_typedStatement hg word)

theorem gives_content (hg : g.Named) (top : Bool) : Gives (g.content top) Content.IsNamed := by
  have hplain := gives_plain (gives_declarationAfter hg false)
  refine gives_after (fun token => ?_)
  split
  · refine gives_after (fun _ => gives_pure ?_)
    intro nest specifier scope start site hsite
    exact absurd hsite List.not_mem_nil
  · exact gives_other _
  · refine gives_after (fun _ => gives_after (fun _ => gives_ite ?_ hplain))
    exact gives_after (fun _ => gives_ite (gives_exportContent hg) (gives_exported hg false))
  · exact gives_wordStatement hg top _
  · exact gives_other _

theorem gives_statementItem (hg : g.Named) (top : Bool) :
    Gives (g.statementItem top) Item.IsNamed := by
  refine gives_after (fun c => gives_bind (gives_content hg top) (fun content h => gives_pure ?_))
  intro nest specifier scope
  exact h nest specifier scope c.start.position

theorem gives_bindingTarget : Gives g.bindingTarget (fun param =>
    ∀ name isOptional type, param = .ident name isOptional type → Name.IsIdentifier name) := by
  refine gives_after (fun _ => gives_ite (gives_after (fun _ => gives_pure (by simp))) ?_)
  refine gives_after (fun _ => gives_ite (gives_after (fun _ => gives_pure (by simp))) ?_)
  refine gives_after (fun _ => gives_ite (gives_pure ?_) ?_)
  · rintro _ _ _ ⟨⟩
    decide
  · refine gives_bind gives_name (fun name h => gives_pure ?_)
    rintro _ _ _ ⟨⟩
    exact h

end Grammar

theorem grammar_named (depth : Nat) : (grammar depth).Named := by
  induction depth with
  | zero => exact ⟨gives_failure _, fun _ => gives_failure _⟩
  | succ depth ih => exact ⟨Grammar.gives_bindingTarget, Grammar.gives_statementItem ih⟩

/-- Every name that a parsed text declares is an identifier. -/
theorem parse?_wellNamed {typed : Bool} {text : String} {items : List Item}
    (h : parse? typed text = some items) (nest : Nesting) (specifier scope : String) :
    WellNamed (sitesOf nest specifier scope items) := by
  have hprogram : ∀ g : Grammar, g.Named →
      Gives (program g) (fun items => ∀ item ∈ items, item.IsNamed) := by
    intro g hg
    refine gives_bind (Grammar.gives_items hg true _) (fun items hitems => ?_)
    exact gives_after (fun _ => gives_after (fun _ => gives_pure hitems))
  obtain ⟨⟨_, c⟩, hrun, rfl⟩ := Option.map_eq_some_iff.mp h
  exact wellNamed_sitesOf (hprogram _ (grammar_named _) _ _ _ hrun) nest specifier scope

end Syntax

end AmbientCatalog
