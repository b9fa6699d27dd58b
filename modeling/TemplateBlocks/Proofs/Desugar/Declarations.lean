import TemplateBlocks.Proofs.Desugar.Inherited
import TemplateBlocks.Proofs.Desugar.Remainder
import TemplateBlocks.Proofs.Reports

/-!
# Declarations after desugaring

What is left of `<:name>` elements once a template of the source is desugared. A declaration is
consumed by the invocation around it or refused, with one exception: a self-closing `<:name />` is
refused only directly inside another element, where declarations are looked for, and stays
elsewhere.

* `desugar_declaresNothing`: the only tags of the form `:name` in a desugared template are
  self-closing, and stand directly in no element; none are left exactly if the template has none;
* `desugar_selfClosing`: at the root, `<:main />` stays.
-/

namespace TemplateBlocks

open Desugar

/-! ### Templates of the source -/

/-- The node comes from the source. -/
def IsSource : (k : Kind) → k.Node → Prop
  | .block, b => b.origin = .source
  | .element, e => e.origin = .source
  | .mustache, m => m.origin = .source
  | .blockStatement, b => b.origin = .source
  | .subExpression, c => c.origin = .source
  | _, _ => True

instance (k : Kind) (x : k.Node) : Decidable (IsSource k x) :=
  match k, x with
  | .block, b => inferInstanceAs (Decidable (b.origin = .source))
  | .element, e => inferInstanceAs (Decidable (e.origin = .source))
  | .mustache, m => inferInstanceAs (Decidable (m.origin = .source))
  | .blockStatement, b => inferInstanceAs (Decidable (b.origin = .source))
  | .subExpression, c => inferInstanceAs (Decidable (c.origin = .source))
  | .template, _ | .statements, _ | .statement, _ | .attribute, _ | .modifier, _
  | .expression, _ | .hash, _ => isTrue trivial

theorem inherited_source : Inherited fun e => e.origin = .source where
  unwrapped _ _ _ _ := rfl
  fanned _ _ _ _ := rfl

/-! ### What stays -/

namespace Element

/-- The element declares no block, nor does a child of it: a tag of the form `:name` is
self-closing, without params and children. -/
structure DeclaresNothing (e : Element) : Prop where
  empty : e.blockName? ≠ none → e.selfClosing = true ∧ e.blockParams = [] ∧ e.children = []
  children : ∀ c, .element c ∈ e.children → c.blockName? = none

/-- A self-closing tag of the form `:name`. -/
def IsClosedDeclaration (e : Element) : Prop := e.selfClosing = true ∧ e.blockName? ≠ none

theorem declaresNothing_of_settled {e : Element} {scope : Scope} (hsource : e.origin = .source)
    (h : settled scope .element e = .ok e) : e.DeclaresNothing := by
  rw [settled_element, hsource] at h
  rcases isPlain_of_settled (settled_of_settleSource h) with
    ⟨hclosing, hparams, hchildren⟩ | ⟨-, hname, hchildren, -⟩
  · exact ⟨fun _ => ⟨hclosing, hparams, hchildren⟩, by simp [hchildren]⟩
  · exact ⟨fun hne => absurd hname hne, hchildren⟩

/-- Fanned-out and unwrapped invocations are not self-closing. -/
theorem inherited_not_isClosedDeclaration : Inherited fun e => ¬ e.IsClosedDeclaration where
  unwrapped _ _ _ _ h := by cases h.1
  fanned _ _ _ _ h := by cases h.1

/-! ### What is refused -/

/-- A self-closing declaration is never judged to be a declaration or none. -/
theorem not_isDeclaration_of_closed {c : Element} (h : c.IsClosedDeclaration) (declares : Bool) :
    c.isDeclaration ≠ .ok declares := by
  cases declares with
  | true =>
    intro heq
    obtain ⟨name, -, -, hopen, -⟩ := isDeclaration_eq_true.1 heq
    simp [h.1] at hopen
  | false => exact fun heq => h.2 (isDeclaration_eq_false.1 heq)

theorem exists_misuse_of_closed {e c : Element} (scope : Scope) (hc : .element c ∈ e.children)
    (hclosed : c.IsClosedDeclaration) :
    ∃ d, outcome (e.enter scope .standard) = .error d ∧ d.isDefect = false := by
  cases h : outcome (e.enter scope .standard) with
  | error d => exact ⟨d, rfl, e.misuse_enter scope d h⟩
  | ok r =>
    exfalso
    cases hself : e.selfClosing with
    | true =>
      obtain ⟨-, hchildren, -⟩ := (enter_selfClosing_eq_ok hself).1 h
      simp [hchildren] at hc
    | false =>
      obtain ⟨-, blocks, hblocks, -⟩ := (enter_open_eq_ok hself).1 h
      obtain ⟨declares, hdeclares⟩ := isDeclaration_of_namedBlocks hblocks hc
      exact not_isDeclaration_of_closed hclosed declares hdeclares

end Element

/-! ### Desugared templates -/

/-- **What is left of declarations.** In a desugared template of the source only self-closing tags
are of the form `:name`, and none of them stands directly in an element. They are those of the
template: it is rid of all declarations exactly when it has no self-closing ones. Directly in an
element of the source they are a misuse. -/
theorem desugar_declaresNothing {t t' : Template} (hsource : Everywhere IsSource .template t)
    (h : t.desugar = .ok t') :
    Everywhere (OfElements Element.DeclaresNothing) .template t' ∧
    (Everywhere (OfElements fun e => e.blockName? = none) .template t' ↔
      Everywhere (OfElements fun e => ¬ e.IsClosedDeclaration) .template t) ∧
    ∀ (scope : Scope) (e c : Element), e.origin = .source → .element c ∈ e.children →
      c.IsClosedDeclaration →
      ∃ d, plainForm scope .element e = .error (.refused d) ∧ d.isDefect = false := by
  rw [desugar_eq_plainForm] at h
  have hnothing : Everywhere (OfElements Element.DeclaresNothing) .template t' := by
    have hstays : Everywhere (OfElements fun e => e.origin = .source → e.DeclaresNothing)
        .template t' :=
      everywhere_of_plainForm (fun scope _ _ hz => ofElements_of
        (Q := fun k z => settled scope k z = .ok z)
        (fun _ he hsource => Element.declaresNothing_of_settled hsource he) hz) h
    have horigin := inherited_source.plainForm (fun _ _ _ _ ho => ho) h
      (hsource.elements fun _ he => he)
    exact (hstays.and horigin).elements fun _ he => he.1 he.2
  refine ⟨hnothing, ⟨?_, ?_⟩, ?_⟩
  · intro hnone
    refine reflected_of_plainForm ?_ (fun _ _ _ _ hclosed => hclosed) h
      (hnone.elements fun e hname hclosed => hclosed.2 hname)
    rintro e hopen ⟨hself, -⟩
    rw [hopen] at hself
    cases hself
  · intro hopen
    have hopen' :=
      Element.inherited_not_isClosedDeclaration.plainForm (fun _ _ _ _ ho => ho) h hopen
    refine (hnothing.and hopen').elements ?_
    rintro e ⟨hdeclares, hnot⟩
    by_contra hname
    exact hnot ⟨(hdeclares.empty hname).1, hname⟩
  · intro scope e c hsource hc hclosed
    obtain ⟨d, hd, hmisuse⟩ := Element.exists_misuse_of_closed scope hc hclosed
    exact ⟨d, plainForm_of_enter_error hsource hd, hmisuse⟩

/-- A self-closing declaration stays at the root and in a block of its own, beside an invocation
whose declaration goes. -/
theorem desugar_declaresNothing_card :
    let closed : Element := { tag := ":main", selfClosing := true }
    let header : Element := { tag := ":header", children := [.element closed] }
    let card : Element := { tag := "Card", children := [.element header] }
    let t : Template := { body := [.element closed, .element card] }
    let t' : Template := {
      body := [.element closed, .element (Element.fanned { tag := "Card" } header [])] }
    Everywhere IsSource .template t ∧ t.desugar = .ok t' ∧
      Everywhere (OfElements Element.DeclaresNothing) .template t' := by
  intro closed header card t t'
  have hsource : Everywhere IsSource .template t := by decide +kernel
  have h : t.desugar = .ok t' := by decide +kernel
  exact ⟨hsource, h, (desugar_declaresNothing hsource h).1⟩

/-- **Not every declaration is refused**: a self-closing one at the root of a template of the source
is left there. -/
theorem desugar_selfClosing :
    let t : Template := { body := [.element { tag := ":main", selfClosing := true }] }
    Everywhere IsSource .template t ∧ t.desugar = .ok t ∧
      ¬ Everywhere (OfElements fun e => e.blockName? = none) .template t := by
  decide +kernel

end TemplateBlocks
