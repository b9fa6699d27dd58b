import TemplateBlocks.Proofs.Desugar.Idempotence

/-!
# What desugaring leaves

Every node of a desugared template stays when it is entered, in whatever scope it stands; so what
is true of all nodes that stay is true everywhere in a desugared template
(`everywhere_of_plainForm`). No query of the source is left in it, in whatever position, and a yield
of the source has no target any more but `inverse`.
-/

namespace TemplateBlocks

open Desugar

/-- **What holds of settled nodes holds everywhere in a plain form.** -/
theorem everywhere_of_plainForm {P : (k : Kind) → k.Node → Prop}
    (hP : ∀ scope k z, settled scope k z = .ok z → P k z) {scope : Scope} {k : Kind} {x z : k.Node}
    (h : plainForm scope k x = .ok z) : Everywhere P k z := by
  -- a node is settled before its parts are, so the induction is on the weight
  induction hn : weight k x using Nat.strong_induction_on generalizing scope k x z with
  | _ n ih =>
    rw [plainForm_eq] at h
    obtain ⟨y, hs, hw⟩ := bind_eq_ok.1 h
    refine .intro (hP scope k z (settled_walked hs hw).1) ?_
    intro q hq
    obtain ⟨x', hx', hplain⟩ := visited_of_mem_parts hw hq
    refine ih _ ?_ hplain rfl
    have := weight_lt_of_settled hs hx'
    simp only at *
    omega

/-! ### Queries -/

/-- The names that queries are called by. -/
def queryNames : List String := ["has-block", "hasBlock", "has-block-params", "hasBlockParams"]

theorem ofPath?_eq_none {text : String} :
    BlockQuery.ofPath? text = none ↔ text ∉ queryNames := by
  unfold BlockQuery.ofPath?
  split <;> simp_all [queryNames]

/-! ### Yields -/

namespace Mustache

/-- The only named argument of a yield to the inverse block. -/
def IsInverseTarget (pairs : List HashPair) : Prop :=
  ∃ target loc, pairs = [⟨Names.targetKey, .string target, loc⟩] ∧
    target.value = Names.inverseBlock

/-- A yield that has no named argument, or only the target `inverse` and no params. -/
def IsPlainYield (m : Mustache) : Prop :=
  m.hash.pairs = [] ∨ (m.params = [] ∧ IsInverseTarget m.hash.pairs)

theorem isPlainYield_of_settled {m : Mustache} {scope : Scope} {p : Path} (hp : m.path = .path p)
    (hy : p.text = Names.yieldKeyword)
    (h : Settled (fun m : Mustache => m.enter scope .standard) m) : m.IsPlainYield := by
  rcases h with h | h
  · left
    rw [outcome_enter, hp] at h
    simp only [hy, if_true] at h
    obtain ⟨-, ⟨hpairs, -⟩ | ⟨target, loc, -, -, hsome⟩⟩ := desugarYield_eq_ok.1 h
    · exact hpairs
    · cases hsome
  · obtain ⟨p', hp', h⟩ := becomes_iff.1 h
    obtain rfl : p' = p := by simpa using hp'.symm.trans hp
    obtain ⟨-, -, target, loc, -, hparams, heq⟩ | ⟨hny, -⟩ := h
    · -- the yield is its own plain form
      have hhash : m.hash = m.yieldHash target := (congrArg Mustache.hash heq :)
      by_cases hi : IsInverseName target.value
      · right
        refine ⟨hparams hi, { value := Names.inverseBlock }, {}, ?_, rfl⟩
        rw [hhash, yieldHash, if_pos hi]
      · left
        rw [hhash, yieldHash, if_neg hi]
    · exact absurd hy hny

end Mustache

/-! ### All calls -/

/-- A call of the source that is no query, and in the case of a yield a plain one. -/
def IsPlainCall : (k : Kind) → k.Node → Prop
  | .mustache, m => m.origin = .source → ∀ p, m.path = .path p →
    p.text ∉ queryNames ∧ (p.text = Names.yieldKeyword → m.IsPlainYield)
  | .subExpression, c => c.origin = .source → c.path.text ∉ queryNames
  | _, _ => True

theorem isPlainCall_of_settled {scope : Scope} {k : Kind} {z : k.Node}
    (h : settled scope k z = .ok z) : IsPlainCall k z := by
  match k, z, h with
  | .mustache, m, h =>
    intro hsource p hp
    rw [settled_mustache, hsource] at h
    have hsettled := settled_of_settleSource h
    refine ⟨?_, fun hy => Mustache.isPlainYield_of_settled hp hy hsettled⟩
    rw [← ofPath?_eq_none]
    by_cases hy : p.text = Names.yieldKeyword
    · rw [hy]
      decide
    · exact Mustache.ofPath?_of_settled hp hy hsettled
  | .subExpression, c, h =>
    intro hsource
    rw [settled_subExpression, hsource] at h
    rw [← ofPath?_eq_none]
    exact SubExpr.settled_iff.1 (settled_of_settleSource h)
  | .template, _, _ | .block, _, _ | .statements, _, _ | .statement, _, _ | .element, _, _
  | .blockStatement, _, _ | .attribute, _, _ | .modifier, _, _ | .expression, _, _
  | .hash, _, _ => trivial

/-- **A desugared template has only plain calls**, in all of its bodies, attributes and arguments:
no query of the source is left, and no yield of the source to a named block. -/
theorem desugar_plainCalls {t t' : Template} (h : t.desugar = .ok t') :
    Everywhere IsPlainCall .template t' := by
  rw [desugar_eq_plainForm] at h
  exact everywhere_of_plainForm (fun _ _ _ => isPlainCall_of_settled) h

/-- A query below a synthetic call in a composed attribute, beside a yield to a named block. -/
theorem desugar_plainCalls_attribute :
    let target : Literal String := { value := "footer" }
    let query : SubExpr :=
      { path := .ofText "has-block" {}, params := [.string target], hash := {} }
    let yield : Mustache := {
      path := .path (.ofText "yield" {})
      hash := { pairs := [{ key := "to", value := .string target }] } }
    let shielded (c : SubExpr) : Mustache :=
      { path := .path (.ofText "if" {}), params := [.sub c], origin := .synthetic }
    let div (c : SubExpr) (m : Mustache) : Element := {
      tag := "div"
      attributes := [{ name := "class", value := .concat { parts := [.mustache (shielded c)] } }]
      children := [.mustache m] }
    let t : Template := { body := [.element (div query yield)] }
    let t' : Template :=
      { body := [.element (div (query.answered .hasBlock "footer") (yield.yieldTo target))] }
    t.desugar = .ok t' ∧ Everywhere IsPlainCall .template t' := by
  intro target query yield shielded div t t'
  have h : t.desugar = .ok t' := by decide +kernel
  exact ⟨h, desugar_plainCalls h⟩

end TemplateBlocks
