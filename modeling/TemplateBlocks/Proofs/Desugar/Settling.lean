import TemplateBlocks.Proofs.Desugar.Idempotence
import TemplateBlocks.Proofs.Desugar.Inherited
import TemplateBlocks.Proofs.Reports

/-!
# How often nodes are replaced

A node is entered until it stays, but at most `roundLimit` times; settling that goes on for longer
is reported as a defect. It ends before that in a node that stays or in a misuse exactly when the
node is not replaced `roundLimit` times in a row (`settles_iff`).

* A mustache or a call is replaced at most once.
* An invocation is fanned out at most once, but before that it may be unwrapped several times: its
  only block, a `<:default>`, may hold nothing but a `<:default>` again. So an element settles
  unless it holds `<:default>`s inside each other, and a template is desugared or refused for a
  misuse unless one of its elements does (`desugar_settles`).
* `defaultsAround n` puts `n` of them around a body; with `roundLimit` of them desugaring reports a
  defect, although there is only the template to mend (`desugar_diverges`).
-/

namespace TemplateBlocks

open Desugar

/-! ### Rounds -/

section Rounds

variable {α : Type} {enter : α → BuildM Unit (Option α)} {n : Nat} {x : α}

/-- The node is replaced by another one so many times in a row. -/
def Replaced (enter : α → BuildM Unit (Option α)) : Nat → α → Prop
  | 0, _ => True
  | n + 1, x => ∃ y, Becomes enter x y ∧ y ≠ x ∧ Replaced enter n y

theorem not_replaced_of_settled (h : Settled enter x) : ¬ Replaced enter (n + 1) x := by
  rintro ⟨y, hy, hne, -⟩
  rcases h with h | h
  · rw [show outcome (enter x) = .ok (some y) from hy] at h
    cases h
  · rw [Becomes, show outcome (enter x) = .ok (some y) from hy] at h
    cases h
    exact hne rfl

/-- A node whose replacements stay is replaced once at most. -/
theorem not_replaced_of_becomes (h : ∀ y, Becomes enter x y → Settled enter y) :
    ¬ Replaced enter (n + 2) x := by
  rintro ⟨y, hy, -, hagain⟩
  exact not_replaced_of_settled (h y hy) hagain

variable [DecidableEq α] {kind : String} {rounds : Nat}

theorem settle_of_replaced (h : Replaced enter rounds x) :
    outcome (settle kind enter rounds x) = .error (Defect.diverged kind roundLimit).report := by
  induction rounds generalizing x with
  | zero => rfl
  | succ rounds ih =>
    obtain ⟨y, hy, hne, h⟩ := h
    rw [settle_of_becomes hy hne]
    exact ih h

/-- Settling that is not cut short ends in a node that stays, or where a node is refused. -/
theorem settle_of_not_replaced (h : ¬ Replaced enter rounds x) :
    (∃ y, outcome (settle kind enter rounds x) = .ok y ∧ Settled enter y) ∨
      ∃ d y, outcome (settle kind enter rounds x) = .error d ∧ outcome (enter y) = .error d := by
  induction rounds generalizing x with
  | zero => exact absurd trivial h
  | succ rounds ih =>
    cases henter : outcome (enter x) with
    | error d =>
      right
      refine ⟨d, x, ?_, henter⟩
      rw [settle, outcome_bind, henter, error_bind]
    | ok next =>
      cases next with
      | none =>
        left
        exact ⟨x, settle_of_settled (.inl henter), .inl henter⟩
      | some y =>
        by_cases hne : y = x
        · subst hne
          left
          exact ⟨y, settle_of_settled (.inr henter), .inr henter⟩
        · rw [settle_of_becomes henter hne]
          exact ih fun hy => h ⟨y, henter, hne, hy⟩

/-- Settling ends in a node that stays, or in a misuse. -/
def Settles (kind : String) (enter : α → BuildM Unit (Option α)) (x : α) : Prop :=
  (∃ y, outcome (settle kind enter roundLimit x) = .ok y ∧ Settled enter y) ∨
    ∃ d, outcome (settle kind enter roundLimit x) = .error d ∧ d.isDefect = false

/-- **A node settles** exactly when it is not replaced over and over. -/
theorem settles_iff (hmisuse : ∀ y, FailsByMisuse (outcome (enter y))) :
    Settles kind enter x ↔ ¬ Replaced enter roundLimit x := by
  constructor
  · intro h hreplaced
    unfold Settles at h
    rw [settle_of_replaced hreplaced] at h
    rcases h with ⟨y, hy, -⟩ | ⟨d, hd, hdefect⟩
    · cases hy
    · cases hd
      cases hdefect
  · intro h
    rcases settle_of_not_replaced h with hok | ⟨d, y, hd, hy⟩
    · exact .inl hok
    · exact .inr ⟨d, hd, hmisuse y d hy⟩

end Rounds

/-! ### Mustaches and calls -/

/-- The plain form of a yield stays. -/
theorem Mustache.settled_yieldTo {m : Mustache} {scope : Scope} {p : Path}
    (target : Literal String) (hp : m.path = .path p) (hy : p.text = Names.yieldKeyword)
    (hsimple : p.isSimple scope = .ok true) :
    Settled (fun m : Mustache => m.enter scope .standard) (m.yieldTo target) := by
  by_cases hi : IsInverseName target.value
  · -- it yields to the inverse block, which is its own plain form
    have hd : target.value ≠ Names.defaultBlock := by
      rcases hi with hi | hi <;> rw [hi] <;> decide
    have hparams : m.yieldParams target = [] := by simp [yieldParams, hd, hi]
    have hself : m.yieldTo target = (m.yieldTo target).yieldTo { value := Names.inverseBlock } := by
      have hinverse : IsInverseName Names.inverseBlock := .inr rfl
      have hne : Names.inverseBlock ≠ Names.defaultBlock := by decide
      simp [yieldTo, yieldParams, yieldHash, hd, hi, hinverse, hne]
    refine .inr (becomes_iff.2 ⟨p, hp, .inl ⟨hy, hsimple, _, {}, ?_, fun _ => hparams, hself⟩⟩)
    simp [yieldTo, yieldHash, hi]
  · left
    have hpath : (m.yieldTo target).path = .path p := hp
    rw [outcome_enter, hpath]
    simp only [hy, if_true]
    refine desugarYield_eq_ok.2 ⟨⟨p, hpath, hsimple⟩, .inl ⟨?_, rfl⟩⟩
    simp [yieldTo, yieldHash, hi]

theorem Mustache.settled_of_becomes {m m' : Mustache} {scope : Scope}
    (h : Becomes (fun m : Mustache => m.enter scope .standard) m m') :
    Settled (fun m : Mustache => m.enter scope .standard) m' := by
  obtain ⟨p, hp, ⟨hy, hsimple, target, loc, -, -, rfl⟩ | ⟨-, query, block, -, -, rfl⟩⟩ :=
    becomes_iff.1 h
  · exact settled_yieldTo target hp hy hsimple
  · left
    rw [outcome_enter, answered]
    simp [helper_ne_yield, ofPath?_helper]

theorem SubExpr.settled_of_becomes {c c' : SubExpr} {scope : Scope}
    (h : Becomes (fun c : SubExpr => c.enter scope .standard) c c') :
    Settled (fun c : SubExpr => c.enter scope .standard) c' := by
  obtain ⟨query, block, -, -, rfl⟩ := becomes_iff.1 h
  rw [settled_iff, answered, Path.ofText_text]
  exact ofPath?_helper query

theorem Mustache.settles (m : Mustache) (scope : Scope) :
    Settles "MustacheStatement" (fun m => m.enter scope .standard) m :=
  (settles_iff fun m => m.misuse_enter scope).2
    (not_replaced_of_becomes fun _ => settled_of_becomes)

theorem SubExpr.settles (c : SubExpr) (scope : Scope) :
    Settles "SubExpression" (fun c => c.enter scope .standard) c :=
  (settles_iff fun c => c.misuse_enter scope).2
    (not_replaced_of_becomes fun _ => settled_of_becomes)

/-! ### Elements -/

namespace Element

variable {e e' : Element} {scope : Scope}

/-- Whether the element holds a `<:default>` that holds a `<:default>`, and so on, so many levels
deep. -/
def holdsDefaults : (levels : Nat) → Element → Bool
  | 0, _ => true
  | levels + 1, e => e.children.any fun s => s.element?.any fun d =>
    d.blockName? == some Names.defaultBlock && d.holdsDefaults levels

theorem holdsDefaults_succ {n : Nat} : e.holdsDefaults (n + 1) ↔
    ∃ d, .element d ∈ e.children ∧ d.blockName? = some Names.defaultBlock ∧ d.holdsDefaults n := by
  rw [holdsDefaults, List.any_eq_true]
  constructor
  · rintro ⟨s, hs, hd⟩
    cases s with
    | element d => exact ⟨d, hs, by simpa [Statement.element?] using hd⟩
    | _ => simp [Statement.element?] at hd
  · rintro ⟨d, hmem, hname, hd⟩
    exact ⟨_, hmem, by simp [Statement.element?, hname, hd]⟩

theorem holdsDefaults_unwrapped (e only : Element) (n : Nat) :
    (e.unwrapped only).holdsDefaults n = only.holdsDefaults n := by
  cases n with
  | zero => rfl
  | succ n => rfl

/-- A replaced invocation is unwrapped, or stays from then on. -/
theorem unwrapped_or_settled (h : Becomes (fun e : Element => e.enter scope .standard) e e') :
    (∃ only, .element only ∈ e.children ∧ only.blockName? = some Names.defaultBlock ∧
      e' = e.unwrapped only) ∨ Settled (fun e : Element => e.enter scope .standard) e' := by
  obtain ⟨-, hname, hcomp, blocks, hblocks, -, hfan⟩ := becomes_iff.1 h
  rcases eq_of_fanOut hfan with ⟨only, rfl, hdefault, rfl⟩ | ⟨-, first, rest, rfl, rfl⟩
  · left
    exact ⟨only, (sublist_of_namedBlocks hblocks).subset (by simp), hdefault, rfl⟩
  · right
    exact .inl (enter_eq_none.2 (isPlain_fanned hname hcomp))

/-- **Elements that are replaced often hold `<:default>`s inside each other.** -/
theorem holdsDefaults_of_replaced {n : Nat}
    (h : Replaced (fun e : Element => e.enter scope .standard) (n + 1) e) : e.holdsDefaults n := by
  induction n generalizing e with
  | zero => rfl
  | succ n ih =>
    obtain ⟨e', he', -, h⟩ := h
    rcases unwrapped_or_settled he' with ⟨only, hmem, hname, rfl⟩ | hsettled
    · have honly := ih h
      rw [holdsDefaults_unwrapped] at honly
      exact holdsDefaults_succ.2 ⟨only, hmem, hname, honly⟩
    · exact absurd h (not_replaced_of_settled hsettled)

theorem settles_iff_not_replaced (e : Element) (scope : Scope) :
    Settles "ElementNode" (fun e => e.enter scope .standard) e ↔
      ¬ Replaced (fun e => e.enter scope .standard) roundLimit e :=
  settles_iff fun e => e.misuse_enter scope

/-- The element holds too few `<:default>`s inside each other to be replaced `roundLimit` times. -/
def IsShallow (e : Element) : Prop := e.holdsDefaults (roundLimit - 1) = false

instance (e : Element) : Decidable e.IsShallow :=
  inferInstanceAs (Decidable (e.holdsDefaults (roundLimit - 1) = false))

theorem IsShallow.settles (h : e.IsShallow) (scope : Scope) :
    Settles "ElementNode" (fun e => e.enter scope .standard) e := by
  rw [settles_iff_not_replaced]
  intro hreplaced
  have := holdsDefaults_of_replaced (n := roundLimit - 1) hreplaced
  rw [h] at this
  cases this

/-- Unwrapping leaves the children of the only block, and fanning out none that are elements. -/
theorem inherited_isShallow : Inherited IsShallow where
  unwrapped e only _ h := (holdsDefaults_unwrapped e only _).trans h
  fanned e first rest _ := by
    simp [IsShallow, roundLimit, holdsDefaults, fanned, Statement.element?]

/-- An invocation that is unwrapped or fanned out if it passes named blocks. -/
structure Invokes (e : Element) (scope : Scope) : Prop where
  unclosed : e.selfClosing = false
  unnamed : e.blockName? = none
  component : e.isComponent scope false = true
  fannable : e.IsFannable

/-- A `<:default>` around a body. -/
def defaultOf (body : List Statement) : Element := { tag := ":default", children := body }

/-- A body with so many `<:default>`s around it, each directly inside the other. -/
def defaultsAround : Nat → List Statement → List Statement
  | 0, body => body
  | n + 1, body => [.element (defaultOf (defaultsAround n body))]

theorem blockName?_defaultOf (body : List Statement) :
    (defaultOf body).blockName? = some Names.defaultBlock := by
  change Text.afterLead? [':'] ":default" = some "default"
  decide

theorem isDeclaration_defaultOf (body : List Statement) :
    (defaultOf body).isDeclaration = .ok true :=
  isDeclaration_eq_true.2 ⟨_, blockName?_defaultOf body, by decide, rfl, rfl, rfl⟩

theorem namedBlocks_of_defaultOf {body : List Statement}
    (h : e.children = [.element (defaultOf body)]) : e.namedBlocks = .ok [defaultOf body] := by
  refine namedBlocks_eq_ok.2 ⟨?_, ?_⟩
  · have hdecl := Statement.declaration?_eq_some.2 ⟨rfl, isDeclaration_defaultOf body⟩
    simp [h, gather, Statement.isIgnorable, hdecl]
  · have hinverse : (defaultOf body).isInverse = false := by
      rw [isInverse, blockName?_defaultOf]
      decide
    simpa [refuseInverse_eq_ok] using hinverse

theorem Invokes.unwrapped {body : List Statement} (h : e.Invokes scope) :
    (e.unwrapped (defaultOf body)).Invokes scope where
  unclosed := rfl
  unnamed := h.unnamed
  component := h.component
  fannable := ⟨rfl, h.fannable.2⟩

theorem Invokes.becomes_unwrapped {body : List Statement} (h : e.Invokes scope)
    (hchildren : e.children = [.element (defaultOf body)]) :
    Becomes (fun e : Element => e.enter scope .standard) e (e.unwrapped (defaultOf body)) := by
  refine becomes_iff.2 ⟨h.unclosed, h.unnamed, h.component, _,
    namedBlocks_of_defaultOf hchildren, by simp, ?_⟩
  rw [outcome_fanOut h.fannable]
  exact if_pos (blockName?_defaultOf body)

/-- **One replacement for each `<:default>`** around the body of an invocation. -/
theorem Invokes.replaced {n : Nat} {body : List Statement} (h : e.Invokes scope)
    (hchildren : e.children = defaultsAround n body) :
    Replaced (fun e : Element => e.enter scope .standard) n e := by
  induction n generalizing e with
  | zero => trivial
  | succ n ih =>
    refine ⟨_, h.becomes_unwrapped hchildren, ?_, ih h.unwrapped rfl⟩
    intro heq
    -- the body would be its own child
    have hbody : defaultsAround n body = [.element (defaultOf (defaultsAround n body))] :=
      (congrArg Element.children heq).trans hchildren
    have := (defaultOf (defaultsAround n body)).weights_children_le
    have hweights := congrArg Statement.weights hbody
    simp only [Statement.weights, Statement.weight, defaultOf] at this hweights
    omega

end Element

/-! ### Templates -/

/-- The traversal halts because of a misuse. -/
def Halt.IsMisuse (halt : Halt) : Prop := ∃ d, halt = .refused d ∧ d.isDefect = false

theorem isMisuse_of_refusing {α : Type} {r : Except Diagnostic α} {halt : Halt}
    (hr : FailsByMisuse r) (h : refusing r = .error halt) : halt.IsMisuse := by
  cases r with
  | error d =>
    cases h
    exact ⟨d, rfl, hr d rfl⟩
  | ok a => cases h

theorem isMisuse_of_settleSource {α : Type} [DecidableEq α] {kind : String}
    {enter : α → BuildM Unit (Option α)} {x : α} {origin : Origin} {halt : Halt}
    (hsettles : Settles kind enter x) (h : settleSource kind enter x origin = .error halt) :
    halt.IsMisuse := by
  cases origin with
  | synthetic => cases h
  | source =>
    refine isMisuse_of_refusing ?_ h
    intro d hd
    rcases hsettles with ⟨y, hy, -⟩ | ⟨d', hd', hmisuse⟩
    · rw [hd] at hy
      cases hy
    · rw [hd] at hd'
      cases hd'
      exact hmisuse

/-- Below the root nothing halts the traversal but a misuse or an element that does not settle. -/
theorem isMisuse_of_settled {scope : Scope} {k : Kind} {x : k.Node} {halt : Halt}
    (hk : k ≠ .template) (hx : OfElements Element.IsShallow k x)
    (h : settled scope k x = .error halt) : halt.IsMisuse := by
  match k, x, hk, hx, h with
  | .template, _, hk, _, _ => exact absurd rfl hk
  | .element, e, _, hx, h => exact isMisuse_of_settleSource (Element.IsShallow.settles hx scope) h
  | .mustache, m, _, _, h => exact isMisuse_of_settleSource (m.settles scope) h
  | .subExpression, c, _, _, h => exact isMisuse_of_settleSource (c.settles scope) h
  | .block, _, _, _, h | .statements, _, _, _, h | .statement, _, _, _, h
  | .blockStatement, _, _, _, h | .attribute, _, _, _, h | .modifier, _, _, _, h
  | .expression, _, _, _, h | .hash, _, _, _, h => cases h

/-- An action that halts by a misuse only. -/
def haltsByMisuse : ActionRel (Except Halt) (Except Halt) where
  rel x _ := ∀ halt, x = .error halt → halt.IsMisuse
  pure _ _ h := by cases h
  bind {α β x y f g} h hf := by
    cases x with
    | error e =>
      rintro halt ⟨⟩
      exact h e rfl
    | ok a => exact hf a

theorem isMisuse_of_plainForm {scope : Scope} {k : Kind} {x : k.Node} {halt : Halt}
    (hk : k ≠ .template) (hx : Everywhere (OfElements Element.IsShallow) k x)
    (h : plainForm scope k x = .error halt) : halt.IsMisuse := by
  induction hn : weight k x using Nat.strong_induction_on generalizing scope k x halt with
  | _ n ih =>
    rw [plainForm_eq] at h
    cases hs : settled scope k x with
    | error e =>
      rw [hs] at h
      cases h
      exact isMisuse_of_settled hk (everywhere_iff.1 hx).1 hs
    | ok y =>
      rw [hs] at h
      obtain ⟨-, hparts⟩ := everywhere_iff.1 (Element.inherited_isShallow.settled hs hx)
      refine walk_rel haltsByMisuse (w := plainForm scope) k y ?_ halt h
      intro p hp halt hhalt
      refine ih _ ?_ (ne_template_of_mem_parts hp) (hparts p hp) hhalt rfl
      have := weight_lt_of_settled hs hp
      omega

theorem isMisuse_of_desugar {t : Template} {halt : Halt}
    (ht : Everywhere (OfElements Element.IsShallow) .template t) (h : t.desugar = .error halt) :
    halt.IsMisuse := by
  rw [desugar_eq_plainForm, plainForm_eq, settled_template] at h
  cases hroot : t.checkRoot .root with
  | error d =>
    rw [hroot] at h
    cases h
    exact ⟨d, rfl, misuse_obey d hroot⟩
  | ok u =>
    rw [hroot] at h
    refine walk_rel haltsByMisuse (w := plainForm .root) .template t ?_ halt h
    intro p hp halt
    exact isMisuse_of_plainForm (ne_template_of_mem_parts hp) ((everywhere_iff.1 ht).2 p hp)

/-- **Rewriting settles unless `<:default>`s are nested.** Mustaches and calls always settle. An
element settles exactly when it is not replaced `roundLimit` times, so it does if it holds fewer
than `roundLimit - 1` `<:default>`s inside each other, and an invocation does not with `roundLimit`
of them around its body. A template all of whose elements are shallow is desugared, or refused for
a misuse of its own. -/
theorem desugar_settles (scope : Scope) (m : Mustache) (c : SubExpr) (e : Element) (t : Template) :
    Settles "MustacheStatement" (fun m => m.enter scope .standard) m ∧
    Settles "SubExpression" (fun c => c.enter scope .standard) c ∧
    (Settles "ElementNode" (fun e => e.enter scope .standard) e ↔
      ¬ Replaced (fun e : Element => e.enter scope .standard) roundLimit e) ∧
    (e.IsShallow → Settles "ElementNode" (fun e => e.enter scope .standard) e) ∧
    (∀ body, e.Invokes scope → e.children = Element.defaultsAround roundLimit body →
      ¬ Settles "ElementNode" (fun e => e.enter scope .standard) e) ∧
    (Everywhere (OfElements Element.IsShallow) .template t →
      (∃ t', t.desugar = .ok t') ∨ ∃ halt, t.desugar = .error halt ∧ halt.IsMisuse) := by
  refine ⟨m.settles scope, c.settles scope, e.settles_iff_not_replaced scope,
    fun h => h.settles scope, ?_, ?_⟩
  · intro body h hchildren
    rw [e.settles_iff_not_replaced, not_not]
    exact h.replaced hchildren
  · intro ht
    cases h : t.desugar with
    | ok t' => exact .inl ⟨t', rfl⟩
    | error halt => exact .inr ⟨halt, rfl, isMisuse_of_desugar ht h⟩

/-- Fourteen `<:default>`s around a text are shallow; with `roundLimit` of them the invocation does
not settle. -/
theorem desugar_settles_nested :
    let card (n : Nat) : Element :=
      { tag := "Card", children := Element.defaultsAround n [.text { chars := "Hello" }] }
    let t : Template := { body := [.element (card 14)] }
    Everywhere (OfElements Element.IsShallow) .template t ∧
      ((∃ t', t.desugar = .ok t') ∨ ∃ halt, t.desugar = .error halt ∧ halt.IsMisuse) ∧
      (card roundLimit).Invokes .root ∧
      ¬ Settles "ElementNode" (fun e => e.enter .root .standard) (card roundLimit) := by
  intro card t
  have hshallow : Everywhere (OfElements Element.IsShallow) .template t := by decide +kernel
  have hinvokes : (card roundLimit).Invokes .root :=
    ⟨rfl, by decide +kernel, by decide +kernel, rfl, nofun⟩
  obtain ⟨-, -, -, -, hdiverges, hsettles⟩ :=
    desugar_settles .root { path := .path (.ofText "yield" {}) }
      { path := .ofText "has-block" {}, params := [], hash := {} } (card roundLimit) t
  exact ⟨hshallow, hsettles hshallow, hinvokes, hdiverges _ hinvokes rfl⟩

/-- **Not every template settles**: of `roundLimit` `<:default>`s directly inside each other, a
defect is reported. -/
theorem desugar_diverges :
    let t : Template := { body := [.element {
      tag := "Card"
      children := Element.defaultsAround roundLimit [.text { chars := "Hello" }] }] }
    let d := (Defect.diverged "ElementNode" roundLimit).report
    t.desugar = .error (.refused d) ∧ d.isDefect = true ∧ d.code = "NB-BUG-REWRITE-DIVERGED" := by
  decide +kernel

end TemplateBlocks
