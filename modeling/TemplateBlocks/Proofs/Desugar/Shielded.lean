import TemplateBlocks.Desugar
import TemplateBlocks.Proofs.Traversal.Everywhere

/-!
# Shielded nodes

Desugaring walks into synthetic nodes but never changes them. So a node in which everything that
could be changed is synthetic stays as it is, in every scope and whatever the builders make
(`visit_shielded`). Marking an expression synthetic shields it in this way: all calls in it become
synthetic, and nothing else about it changes (`Restamped`).
-/

namespace TemplateBlocks

open Desugar

/-! ### Visiting shielded nodes -/

/-- A node that desugaring only walks into. The root of a template is checked in any case. -/
def IsShielded : (k : Kind) → k.Node → Prop
  | .template, _ => False
  | .block, b => b.origin = .synthetic
  | .element, e => e.origin = .synthetic
  | .mustache, m => m.origin = .synthetic
  | .subExpression, c => c.origin = .synthetic
  | .statements, _ | .statement, _ | .blockStatement, _ | .attribute, _ | .modifier, _
  | .expression, _ | .hash, _ => True

section Visit

variable {σ : Type} {b : Builders σ} {k : Kind} {x : k.Node}

theorem hooks_of_isShielded (v : Visitor (State σ)) (h : IsShielded k x) :
    hooks b v k x = walk v k x := by
  match k, x, h with
  | .block, ⟨_, _, _, _, _⟩, h =>
    cases h
    rfl
  | .element, ⟨_, _, _, _, _, _, _, _, _⟩, h =>
    cases h
    rfl
  | .mustache, ⟨_, _, _, _, _, _⟩, h =>
    cases h
    rfl
  | .subExpression, ⟨_, _, _, _, _⟩, h =>
    cases h
    rfl
  | .statements, _, _ | .statement, _, _ | .blockStatement, _, _ | .attribute, _, _
  | .modifier, _, _ | .expression, _, _ | .hash, _, _ => rfl

/-- **A node stays as it is if all nodes in it are shielded**, and so does what desugaring keeps. -/
theorem visit_shielded {levels : Nat} (h : weight k x ≤ levels) (hx : Everywhere IsShielded k x) :
    (hooks b).visit levels k x = pure x := by
  induction levels generalizing k x with
  | zero => exact absurd (weight_pos k x) (by omega)
  | succ levels ih =>
    obtain ⟨hx, hparts⟩ := everywhere_iff.1 hx
    have hkept : ∀ p ∈ parts k x, (hooks b).visit levels p.1 p.2 = pure p.2 := by
      intro p hp
      have hlt := weight_lt_of_mem_parts hp
      exact ih (by omega) (hparts p hp)
    rw [Hooks.visit, hooks_of_isShielded _ hx]
    exact walk_eq_self k x hkept

end Visit

/-! ### Other stamps -/

mutual
/-- The second expression is the first one with its calls restamped: nothing but the origins of the
calls in it may differ. -/
inductive Expr.Restamped : Expr → Expr → Prop
  | path (p : Path) : Expr.Restamped (.path p) (.path p)
  | string (l : Literal String) : Expr.Restamped (.string l) (.string l)
  | number (l : Literal Binary64) : Expr.Restamped (.number l) (.number l)
  | boolean (l : Literal Bool) : Expr.Restamped (.boolean l) (.boolean l)
  | sub {c c' : SubExpr} : SubExpr.Restamped c c' → Expr.Restamped (.sub c) (.sub c')
/-- A call with other stamps on it and on the calls in its arguments. -/
inductive SubExpr.Restamped : SubExpr → SubExpr → Prop
  | intro {path : Path} {params params' : List Expr} {hash hash' : Hash} {loc : Span}
      {origin origin' : Origin} : Expr.RestampedAll params params' → Hash.Restamped hash hash' →
      SubExpr.Restamped ⟨path, params, hash, loc, origin⟩ ⟨path, params', hash', loc, origin'⟩
/-- Named arguments with other stamps on the calls in them. -/
inductive Hash.Restamped : Hash → Hash → Prop
  | intro {pairs pairs' : List HashPair} {loc : Span} : HashPair.RestampedAll pairs pairs' →
      Hash.Restamped ⟨pairs, loc⟩ ⟨pairs', loc⟩
/-- Expressions one by one. -/
inductive Expr.RestampedAll : List Expr → List Expr → Prop
  | nil : Expr.RestampedAll [] []
  | cons {e e' : Expr} {es es' : List Expr} : Expr.Restamped e e' → Expr.RestampedAll es es' →
      Expr.RestampedAll (e :: es) (e' :: es')
/-- Named arguments one by one. -/
inductive HashPair.RestampedAll : List HashPair → List HashPair → Prop
  | nil : HashPair.RestampedAll [] []
  | cons {key : String} {value value' : Expr} {loc : Span} {ps ps' : List HashPair} :
      Expr.Restamped value value' → HashPair.RestampedAll ps ps' →
      HashPair.RestampedAll (⟨key, value, loc⟩ :: ps) (⟨key, value', loc⟩ :: ps')
end

mutual
theorem Expr.restamped_markSynthetic : (e : Expr) → Expr.Restamped e e.markSynthetic
  | .path p => .path p
  | .string l => .string l
  | .number l => .number l
  | .boolean l => .boolean l
  | .sub c => .sub c.restamped_markSynthetic
theorem SubExpr.restamped_markSynthetic : (c : SubExpr) → SubExpr.Restamped c c.markSynthetic
  | ⟨_, params, hash, _, _⟩ =>
    .intro (Expr.restamped_markSynthetics params) hash.restamped_markSynthetic
theorem Hash.restamped_markSynthetic : (h : Hash) → Hash.Restamped h h.markSynthetic
  | ⟨pairs, _⟩ => .intro (HashPair.restamped_markSynthetics pairs)
theorem Expr.restamped_markSynthetics :
    (es : List Expr) → Expr.RestampedAll es (Expr.markSynthetics es)
  | [] => .nil
  | e :: es => .cons e.restamped_markSynthetic (Expr.restamped_markSynthetics es)
theorem HashPair.restamped_markSynthetics :
    (ps : List HashPair) → HashPair.RestampedAll ps (HashPair.markSynthetics ps)
  | [] => .nil
  | ⟨_, value, _⟩ :: ps =>
    .cons value.restamped_markSynthetic (HashPair.restamped_markSynthetics ps)
end

mutual
theorem Expr.markSynthetic_of_restamped {e e' : Expr} :
    Expr.Restamped e e' → e'.markSynthetic = e.markSynthetic
  | .path _ | .string _ | .number _ | .boolean _ => rfl
  | .sub h => congrArg Expr.sub (SubExpr.markSynthetic_of_restamped h)
theorem SubExpr.markSynthetic_of_restamped {c c' : SubExpr} :
    SubExpr.Restamped c c' → c'.markSynthetic = c.markSynthetic
  | .intro hparams hhash => by
    simp [SubExpr.markSynthetic, Expr.markSynthetics_of_restamped hparams,
      Hash.markSynthetic_of_restamped hhash]
theorem Hash.markSynthetic_of_restamped {h h' : Hash} :
    Hash.Restamped h h' → h'.markSynthetic = h.markSynthetic
  | .intro hpairs => by
    simp [Hash.markSynthetic, HashPair.markSynthetics_of_restamped hpairs]
theorem Expr.markSynthetics_of_restamped {es es' : List Expr} :
    Expr.RestampedAll es es' → Expr.markSynthetics es' = Expr.markSynthetics es
  | .nil => rfl
  | .cons he hes => by
    simp [Expr.markSynthetics, Expr.markSynthetic_of_restamped he,
      Expr.markSynthetics_of_restamped hes]
theorem HashPair.markSynthetics_of_restamped {ps ps' : List HashPair} :
    HashPair.RestampedAll ps ps' → HashPair.markSynthetics ps' = HashPair.markSynthetics ps
  | .nil => rfl
  | .cons hvalue hps => by
    simp [HashPair.markSynthetics, HashPair.markSynthetic, Expr.markSynthetic_of_restamped hvalue,
      HashPair.markSynthetics_of_restamped hps]
end

/-! ### Marked expressions -/

mutual
theorem Expr.everywhere_markSynthetic :
    (e : Expr) → Everywhere IsShielded .expression e.markSynthetic
  | .path _ | .string _ | .number _ | .boolean _ => .intro trivial (List.forall_mem_nil _)
  | .sub c => everywhere_sub.2 ⟨trivial, c.everywhere_markSynthetic⟩
theorem SubExpr.everywhere_markSynthetic :
    (c : SubExpr) → Everywhere IsShielded .subExpression c.markSynthetic
  | ⟨_, params, hash, _, _⟩ =>
    everywhere_subExpression.2
      ⟨rfl, Expr.everywhere_markSynthetics params, hash.everywhere_markSynthetic⟩
theorem Hash.everywhere_markSynthetic :
    (h : Hash) → Everywhere IsShielded .hash h.markSynthetic
  | ⟨pairs, _⟩ => everywhere_hash.2 ⟨trivial, HashPair.everywhere_markSynthetics pairs⟩
theorem Expr.everywhere_markSynthetics :
    (es : List Expr) → ∀ e ∈ Expr.markSynthetics es, Everywhere IsShielded .expression e
  | [] => List.forall_mem_nil _
  | e :: es =>
    List.forall_mem_cons.2 ⟨e.everywhere_markSynthetic, Expr.everywhere_markSynthetics es⟩
theorem HashPair.everywhere_markSynthetics : (ps : List HashPair) →
    ∀ p ∈ HashPair.markSynthetics ps, Everywhere IsShielded .expression p.value
  | [] => List.forall_mem_nil _
  | ⟨_, value, _⟩ :: ps =>
    List.forall_mem_cons.2
      ⟨value.everywhere_markSynthetic, HashPair.everywhere_markSynthetics ps⟩
end

/-- **Marking shields an expression.** All calls in a marked expression are synthetic, and it
differs from the expression in nothing but the origins of calls; marking it again changes nothing.
Visiting it gives it back, in any scope and with any builders, and leaves the scope and the
builders' state as they were. -/
theorem markSynthetic_shields (e : Expr) :
    Everywhere IsShielded .expression e.markSynthetic ∧ e.Restamped e.markSynthetic ∧
      e.markSynthetic.markSynthetic = e.markSynthetic ∧
      ∀ {σ : Type} (b : Builders σ) (s : State σ) (levels : Nat),
        weight .expression e.markSynthetic ≤ levels →
        ((hooks b).visit levels .expression e.markSynthetic).run.run s =
          (.ok e.markSynthetic, s) := by
  have hshielded := e.everywhere_markSynthetic
  have hrestamped := e.restamped_markSynthetic
  refine ⟨hshielded, hrestamped, Expr.markSynthetic_of_restamped hrestamped, ?_⟩
  intro σ b s levels hlevels
  rw [visit_shielded (k := .expression) hlevels hshielded]
  rfl

/-- A query with two arguments inside a call, next to one that is shadowed: the call is refused as
it stands, and kept as it is once it is marked. -/
theorem markSynthetic_shields_queries :
    let name (text : String) : Path := .ofText text {}
    let malformed : SubExpr := {
      path := name "has-block"
      params := [.string { value := "a" }, .string { value := "b" }]
      hash := {} }
    let shadowed : SubExpr := { path := name "has-block-params", params := [], hash := {} }
    let call (arguments : List SubExpr) (named : SubExpr) : Expr :=
      .sub {
        path := name "if"
        params := arguments.map Expr.sub
        hash := { pairs := [{ key := "else", value := .sub named }] } }
    let s : State Unit := ⟨Scope.root.push ⟨.block, ["has-block-params"], {}⟩, ()⟩
    let visit (e : Expr) := ((hooks .standard).visit (weight .expression e) .expression e).run.run s
    (visit (call [malformed] malformed)).1 =
        .error (.refused ((Misuse.queryArguments "(has-block)").report {})) ∧
      (visit (call [] shadowed)).1 =
        .error (.refused ((Misuse.notSimplePath "(has-block-params)").report {})) ∧
      visit (call [malformed] shadowed).markSynthetic =
        (.ok (call [malformed] shadowed).markSynthetic, s) := by
  intro name malformed shadowed call s visit
  refine ⟨by decide +kernel, by decide +kernel, ?_⟩
  exact (markSynthetic_shields (call [malformed] shadowed)).2.2.2 .standard s _ le_rfl

end TemplateBlocks
