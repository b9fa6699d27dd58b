import TemplateBlocks.Proofs.Desugar.Idempotence
import TemplateBlocks.Proofs.Desugar.Settling

/-!
# Lone default blocks

An invocation whose only content is a `<:default>` passes what the `<:default>` holds. Entering it
puts the implicit form in its place, which has the children and the params of the block as its own;
and that form stays. So a visit of the one is a visit of the other, whatever it ends in
(`resultIn_visit_implicit`).
-/

namespace TemplateBlocks

open Desugar

namespace Element

variable {e only : Element} {scope : Scope}

/-- The invocation with the children and params of a block in place of its own. -/
def implicit (e only : Element) : Element :=
  { e with children := only.children, blockParams := only.blockParams }

/-- The invocation holds nothing but the declaration `only` between blank texts and comments. -/
def HoldsOnly (e only : Element) : Prop :=
  ∃ before after, e.children = before ++ .element only :: after ∧
    ∀ s ∈ before ++ after, s.isIgnorable

/-- An invocation of the source that passes one `<:default>`, which declares nothing itself. -/
structure HasLoneDefault (scope : Scope) (e only : Element) : Prop where
  source : e.origin = .source
  invokes : e.Invokes scope
  holds : e.HoldsOnly only
  declared : only.isDeclaration = .ok true
  named : only.blockName? = some Names.defaultBlock
  flat : ∀ c, .element c ∈ only.children → c.blockName? = none

theorem HasLoneDefault.implicit_eq (h : e.HasLoneDefault scope only) :
    e.implicit only = e.unwrapped only := by
  simp [implicit, unwrapped, h.source, h.invokes.unclosed]

/-! ### The blocks of the invocation -/

theorem gather_ignorable {tag : String} {blocks : List Element} {loose : Option Span}
    {before ss : List Statement} (h : ∀ s ∈ before, s.isIgnorable) :
    gather tag blocks loose (before ++ ss) = gather tag blocks loose ss := by
  induction before with
  | nil => rfl
  | cons s rest ih =>
    have hs : s.isIgnorable := h s (by simp)
    rw [List.cons_append, gather, if_pos hs]
    exact ih fun t ht => h t (by simp [ht])

theorem HoldsOnly.gather_eq {tag : String} (h : e.HoldsOnly only)
    (hdeclared : only.isDeclaration = .ok true) :
    gather tag [] none e.children = .ok [only] := by
  obtain ⟨before, after, hchildren, hblank⟩ := h
  have hdecl := Statement.declaration?_eq_some.2 ⟨rfl, hdeclared⟩
  have hafter : gather tag [only] none after = .ok [only] := by
    rw [← List.append_nil after, gather_ignorable fun s hs => hblank s (by simp [hs])]
    rfl
  rw [hchildren, gather_ignorable fun s hs => hblank s (by simp [hs])]
  simp [gather, Statement.isIgnorable, hdecl, hafter]

theorem HoldsOnly.namedBlocks_eq (h : e.HoldsOnly only)
    (hdeclared : only.isDeclaration = .ok true)
    (hnamed : only.blockName? = some Names.defaultBlock) : e.namedBlocks = .ok [only] := by
  refine namedBlocks_eq_ok.2 ⟨h.gather_eq hdeclared, ?_⟩
  have hinverse : only.isInverse = false := by
    rw [isInverse, hnamed]
    decide
  simpa [refuseInverse_eq_ok] using hinverse

theorem HasLoneDefault.namedBlocks_eq (h : e.HasLoneDefault scope only) :
    e.namedBlocks = .ok [only] :=
  h.holds.namedBlocks_eq h.declared h.named

/-! ### Settling -/

/-- No element takes its own place. -/
theorem ne_of_becomes {e e' : Element}
    (h : Becomes (fun e : Element => e.enter scope .standard) e e') : e' ≠ e := by
  rintro rfl
  have hstays := enter_eq_none.2 (isPlain_of_settled (.inr h))
  rw [show outcome (e'.enter scope .standard) = .ok (some e') from h] at hstays
  cases hstays

theorem HasLoneDefault.becomes (h : e.HasLoneDefault scope only) :
    Becomes (fun e : Element => e.enter scope .standard) e (e.implicit only) := by
  refine becomes_iff.2 ⟨h.invokes.unclosed, h.invokes.unnamed, h.invokes.component, _,
    h.namedBlocks_eq, by simp, ?_⟩
  rw [outcome_fanOut h.invokes.fannable, h.implicit_eq]
  exact if_pos h.named

theorem HasLoneDefault.settled_implicit (h : e.HasLoneDefault scope only) :
    Settled (fun e : Element => e.enter scope .standard) (e.implicit only) := by
  left
  refine enter_eq_none.2 (.inr ⟨h.invokes.unclosed, h.invokes.unnamed, h.flat, .inl ?_⟩)
  exact h.invokes.component

/-- **The two forms settle alike**, with the same outcome from two rounds on. -/
theorem HasLoneDefault.settle_eq (h : e.HasLoneDefault scope only) (kind : String)
    (rounds : Nat) :
    outcome (settle kind (fun e => e.enter scope .standard) (rounds + 2) e) =
      outcome (settle kind (fun e => e.enter scope .standard) (rounds + 2) (e.implicit only)) := by
  rw [settle_of_becomes h.becomes (ne_of_becomes h.becomes), settle_of_settled h.settled_implicit,
    settle_of_settled h.settled_implicit]

end Element

/-! ### Visits -/

theorem resultIn_build {α : Type} (scope : Scope) (act : Scope → BuildM Unit α) :
    resultIn scope (build act) = (refusing (outcome (act scope)), ⟨scope, ()⟩) := by
  have hrun : resultIn scope (build act) =
      resultIn scope (VisitM.ofExcept (outcome (act scope))) := rfl
  rw [hrun]
  cases outcome (act scope) <;> rfl

/-- Only the outcome of what is built matters to what comes after it. -/
theorem resultIn_build_bind {α β : Type} {scope : Scope} {act act' : Scope → BuildM Unit α}
    (h : outcome (act scope) = outcome (act' scope)) (f : α → VisitM (State Unit) β) :
    resultIn scope (build act >>= f) = resultIn scope (build act' >>= f) := by
  have hrun (x : VisitM (State Unit) α) : resultIn scope (x >>= f) =
      (ExceptT.bindCont f (resultIn scope x).1).run (resultIn scope x).2 := rfl
  rw [hrun, hrun, resultIn_build, resultIn_build, h]

/-- **A lone default block is the implicit body**: a visit of the invocation ends as a visit of its
implicit form does, in the same node or the same error, and in the same state. -/
theorem resultIn_visit_implicit {scope : Scope} {e only : Element}
    (h : e.HasLoneDefault scope only) (levels : Nat) :
    resultIn scope ((hooks .standard).visit levels .element e) =
      resultIn scope ((hooks .standard).visit levels .element (e.implicit only)) := by
  cases levels with
  | zero => rfl
  | succ levels =>
    change resultIn scope (visitElement .standard _ e) =
      resultIn scope (visitElement .standard _ (e.implicit only))
    have hsource : (e.implicit only).origin = .source := h.source
    simp only [visitElement, h.source, hsource]
    exact resultIn_build_bind (h.settle_eq "ElementNode" 14) _

theorem plainForm_implicit {scope : Scope} {e only : Element} (h : e.HasLoneDefault scope only) :
    plainForm scope .element e = plainForm scope .element (e.implicit only) := by
  obtain ⟨more, hmore⟩ : ∃ n, weight .element e ≤ n ∧ weight .element (e.implicit only) ≤ n :=
    ⟨_, le_max_left _ _, le_max_right _ _⟩
  rw [← plainWithin_of_weight_le hmore.1, ← plainWithin_of_weight_le hmore.2]
  exact congrArg Prod.fst (resultIn_visit_implicit h more)

end TemplateBlocks
