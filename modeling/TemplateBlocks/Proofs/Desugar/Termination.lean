import TemplateBlocks.Proofs.Desugar.PlainForm
import TemplateBlocks.Proofs.Traversal.Preorder

/-!
# Desugaring ends

A visit goes on into what it has put in the place of a node, which may be larger than the node. The
number of levels only bounds how deep it goes: a visit that has ended before ends in the same way,
and in the same state, with more levels (`visit_finishes`), whatever the builders make. With the
standard builders every visit ends, since the parts that it goes on with weigh less than the node
that it came to: a replacement may have more nodes, but its weight is bounded by the weight of what
it replaces (`weight_lt_of_settled`). So from the weight of a node on, levels make no difference
(`visit_terminates`).
-/

namespace TemplateBlocks

open Desugar

variable {σ α : Type}

/-! ### More levels -/

/-- An action that the other one agrees with, its state included, unless it runs out of levels. -/
def finishes (σ : Type) : ActionRel (VisitM σ) (VisitM σ) where
  rel x y := ∀ s, (x.run.run s).1 ≠ .error .exhausted → y.run.run s = x.run.run s
  pure _ _ _ := rfl
  bind {α β x y f g} h hf := by
    intro s hne
    have hrun {z : VisitM σ α} {j : α → VisitM σ β} : (z >>= j).run.run s =
        (ExceptT.bindCont j (z.run.run s).1).run (z.run.run s).2 := rfl
    rw [hrun] at hne
    have hx : (x.run.run s).1 ≠ .error .exhausted := by
      intro hx
      rw [hx] at hne
      exact hne rfl
    rw [hrun, hrun, h s hx]
    generalize x.run.run s = out at hne ⊢
    obtain ⟨r, s'⟩ := out
    cases r with
    | error halt => rfl
    | ok a => exact hf a s' hne

theorem finishes_refl (x : VisitM σ α) : (finishes σ).rel x x := fun _ _ => rfl

theorem finishes_within {frame : Frame} {x y : VisitM (State σ) α}
    (h : (finishes (State σ)).rel x y) :
    (finishes (State σ)).rel (within frame x) (within frame y) :=
  (finishes _).bind (finishes_refl _) fun _ => (finishes _).bind h fun _ => finishes_refl _

section Level

variable {b : Builders σ} {v w : Visitor (State σ)}
  (hvw : ∀ k x, (finishes (State σ)).rel (v k x) (w k x))

include hvw

theorem finishes_walk (k : Kind) (x : k.Node) :
    (finishes (State σ)).rel (walk v k x) (walk w k x) :=
  walk_rel (finishes _) k x fun p _ => hvw p.1 p.2

theorem finishes_visitElement (e : Element) :
    (finishes (State σ)).rel (visitElement b v e) (visitElement b w e) := by
  unfold visitElement
  cases e.origin with
  | synthetic => exact finishes_walk hvw .element e
  | source =>
    refine (finishes _).bind (finishes_refl _) fun e' => ?_
    refine (finishes _).bind (finishes_refl _) fun s => ?_
    dsimp only
    split
    · exact finishes_walk hvw .element e'
    · exact finishes_within (finishes_walk hvw .element e')

theorem finishes_hooks (k : Kind) (x : k.Node) :
    (finishes (State σ)).rel (hooks b v k x) (hooks b w k x) := by
  match k, x with
  | .template, t =>
    refine (finishes _).bind (finishes_refl _) fun _ => ?_
    exact (finishes _).bind (finishes_walk hvw .template t) fun _ => finishes_refl _
  | .block, ⟨body, params, chained, loc, origin⟩ =>
    cases origin with
    | synthetic => exact finishes_walk hvw .block _
    | source => exact finishes_within (finishes_walk hvw .block _)
  | .element, e => exact finishes_visitElement hvw e
  | .mustache, ⟨path, params, hash, trusting, loc, origin⟩ =>
    cases origin with
    | synthetic => exact finishes_walk hvw .mustache _
    | source => exact (finishes _).bind (finishes_refl _) fun m => finishes_walk hvw .mustache m
  | .subExpression, ⟨path, params, hash, loc, origin⟩ =>
    cases origin with
    | synthetic => exact finishes_walk hvw .subExpression _
    | source =>
      exact (finishes _).bind (finishes_refl _) fun c => finishes_walk hvw .subExpression c
  | .statements, ss => exact finishes_walk hvw .statements ss
  | .statement, s => exact finishes_walk hvw .statement s
  | .blockStatement, s => exact finishes_walk hvw .blockStatement s
  | .attribute, a => exact finishes_walk hvw .attribute a
  | .modifier, m => exact finishes_walk hvw .modifier m
  | .expression, e => exact finishes_walk hvw .expression e
  | .hash, h => exact finishes_walk hvw .hash h

end Level

/-- **A visit that has ended ends in the same way with more levels**, whatever the builders make. -/
theorem visit_finishes (b : Builders σ) (levels more : Nat) (k : Kind) (x : k.Node) :
    (finishes (State σ)).rel ((hooks b).visit levels k x)
      ((hooks b).visit (levels + more) k x) := by
  induction levels generalizing k x with
  | zero => exact fun s hne => absurd rfl hne
  | succ levels ih =>
    rw [Nat.add_right_comm]
    exact finishes_hooks ih k x

/-! ### Enough levels -/

/-- **Every visit ends.** The parts that it goes on with, in what was put in the place of a node,
weigh less than the node. From the weight of the node on, a visit in any scope does not run out of
levels, and neither its result nor the state that it leaves depends on how many there are. So the
plain form of a template is what visiting it ends in, however many levels are allowed beyond. -/
theorem visit_terminates :
    (∀ (scope : Scope) (k : Kind) (x y : k.Node), settled scope k x = .ok y →
      ∀ p ∈ parts k y, weight p.1 p.2 < weight k x) ∧
    (∀ (scope : Scope) (k : Kind) (x : k.Node) (levels : Nat), weight k x ≤ levels →
      let visit (levels : Nat) := resultIn scope ((hooks .standard).visit levels k x)
      (visit levels).1 ≠ .error .exhausted ∧ visit levels = visit (weight k x)) ∧
    ∀ (t : Template) (levels : Nat), t.weight ≤ levels →
      t.desugar ≠ .error .exhausted ∧
        t.desugar = (resultIn .root ((hooks .standard).visit levels .template t)).1 := by
  refine ⟨?_, ?_, ?_⟩
  · intro scope k x y h p hp
    exact weight_lt_of_settled h hp
  · intro scope k x levels hlevels visit
    refine ⟨plainWithin_ne_exhausted levels scope k x hlevels, ?_⟩
    obtain ⟨more, rfl⟩ := Nat.exists_eq_add_of_le hlevels
    exact visit_finishes .standard (weight k x) more k x ⟨scope, ()⟩
      (plainForm_ne_exhausted scope k x)
  · intro t levels hlevels
    exact ⟨plainForm_ne_exhausted .root .template t,
      (plainWithin_of_weight_le (k := .template) hlevels).symm⟩

/-- An invocation whose plain form has more nodes than itself; too few levels do not finish it. -/
theorem visit_terminates_footer :
    let footer : Element := { tag := ":footer", blockParams := ["item"] }
    let t : Template := { body := [.element { tag := "Card", children := [.element footer] }] }
    let t' : Template := { body := [.element (Element.fanned { tag := "Card" } footer [])] }
    let visit (levels : Nat) := resultIn .root ((hooks .standard).visit levels .template t)
    (visit 6).1 = .error .exhausted ∧ (visit t.weight).1 = .ok t' ∧
      (nodes .template t).length < (nodes .template t').length ∧
      ∀ levels ≥ t.weight, visit levels = visit t.weight := by
  intro footer t t' visit
  refine ⟨by decide +kernel, by decide +kernel, by decide +kernel, ?_⟩
  intro levels hlevels
  exact (visit_terminates.2.1 .root .template t levels hlevels).2

end TemplateBlocks
