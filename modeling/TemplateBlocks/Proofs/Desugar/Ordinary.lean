import TemplateBlocks.Proofs.Desugar.Remainder
import TemplateBlocks.Proofs.Desugar.Settling

/-!
# Ordinary templates

A template without named blocks, queries and yields to a target has nothing to desugar: no node of
it is replaced, so the scopes that the traversal keeps track of are those of the template as it
stands (`EverywhereVisited`). The traversal still checks the nodes of the source; an ordinary
template comes back as it is if all of them pass in their scopes, and is refused for a misuse
otherwise (`desugar_ordinary`).
-/

namespace TemplateBlocks

open Desugar

/-! ### Properties in the scopes of the traversal -/

/-- `P` holds of a node and of every node below it, each in the scope that it is visited in: blocks
of the source bind their params, and so do component invocations of the source unless they are
self-closing. -/
inductive EverywhereVisited (P : Scope → (k : Kind) → k.Node → Prop) :
    Scope → (k : Kind) → k.Node → Prop
  | intro {scope : Scope} {k : Kind} {x : k.Node} : P scope k x →
      (∀ p ∈ parts k x, EverywhereVisited P (innerScope scope k x) p.1 p.2) →
      EverywhereVisited P scope k x

theorem everywhereVisited_iff {P : Scope → (k : Kind) → k.Node → Prop} {scope : Scope} {k : Kind}
    {x : k.Node} : EverywhereVisited P scope k x ↔
      P scope k x ∧ ∀ p ∈ parts k x, EverywhereVisited P (innerScope scope k x) p.1 p.2 :=
  ⟨fun ⟨h, hp⟩ => ⟨h, hp⟩, fun ⟨h, hp⟩ => .intro h hp⟩

/-! ### Ordinary nodes -/

/-- The node has nothing to desugar: it is neither a named block nor, in the source, a query or a
yield with a named argument. -/
def IsOrdinary : (k : Kind) → k.Node → Prop
  | .element, e => e.blockName? = none
  | .mustache, m => m.origin = .source → ∀ p, m.path = .path p →
    p.text ∉ queryNames ∧ (p.text = Names.yieldKeyword → m.hash.pairs = [])
  | .subExpression, c => c.origin = .source → c.path.text ∉ queryNames
  | _, _ => True

/-- What is asked of ordinary nodes in their scope. Templates bind no params. In the source,
self-closing elements are empty, elements that invoke no component bind no params, and a yield is
called by its own name. -/
def IsLegal (scope : Scope) : (k : Kind) → k.Node → Prop
  | .template, t => t.blockParams = []
  | .element, e => e.origin = .source →
    (e.selfClosing = true → e.blockParams = [] ∧ e.children = []) ∧
    (e.selfClosing = false → e.isComponent scope false = false → e.blockParams = [])
  | .mustache, m => m.origin = .source → ∀ p, m.path = .path p → p.text = Names.yieldKeyword →
    p.isSimple scope = .ok true
  | _, _ => True

instance {k : Kind} {x : k.Node} : Decidable (IsOrdinary k x) :=
  match k, x with
  | .element, e => inferInstanceAs (Decidable (e.blockName? = none))
  | .mustache, m => inferInstanceAs (Decidable (m.origin = .source → ∀ p, m.path = .path p →
      p.text ∉ queryNames ∧ (p.text = Names.yieldKeyword → m.hash.pairs = [])))
  | .subExpression, c =>
    inferInstanceAs (Decidable (c.origin = .source → c.path.text ∉ queryNames))
  | .template, _ | .block, _ | .statements, _ | .statement, _ | .blockStatement, _
  | .attribute, _ | .modifier, _ | .expression, _ | .hash, _ => isTrue trivial

/-! ### Nodes that are not replaced -/

namespace Element

variable {e e' : Element} {scope : Scope}

theorem not_becomes_of_ordinary (he : Everywhere IsOrdinary .element e) (e' : Element) :
    ¬ Becomes (fun e : Element => e.enter scope .standard) e e' := by
  intro h
  obtain ⟨-, -, -, blocks, hblocks, hne, -⟩ := becomes_iff.1 h
  have hnone : e.namedBlocks = .ok [] := by
    rw [namedBlocks_eq_nil]
    intro c hc
    exact (everywhere_iff.1 (he.children.of_mem hc)).1
  rw [hnone] at hblocks
  cases hblocks
  exact hne rfl

theorem isPlain_of_ordinary (he : Everywhere IsOrdinary .element e) (hsource : e.origin = .source) :
    e.IsPlain scope ↔ IsLegal scope .element e := by
  have hname : e.blockName? = none := (everywhere_iff.1 he).1
  have hchildren : ∀ c, .element c ∈ e.children → c.blockName? = none := by
    intro c hc
    exact (everywhere_iff.1 (he.children.of_mem hc)).1
  cases hclosed : e.selfClosing with
  | true => simp [IsPlain, IsLegal, hclosed, hsource]
  | false =>
    simp only [IsPlain, IsLegal, hclosed, hsource, hname, Bool.false_eq_true, false_and, false_or,
      true_and, forall_const, false_implies, and_iff_right hchildren]
    cases e.isComponent scope false <;> simp

theorem settled_ordinary (he : Everywhere IsOrdinary .element e) :
    settled scope .element e = .ok e' ↔ IsLegal scope .element e ∧ e' = e := by
  rw [settled_element]
  cases hsource : e.origin with
  | synthetic => simp [settleSource_synthetic, IsLegal, hsource]
  | source =>
    rw [settleSource_eq_ok (not_becomes_of_ordinary he), enter_eq_none,
      isPlain_of_ordinary he hsource]

end Element

namespace Mustache

variable {m m' : Mustache} {scope : Scope}

theorem not_becomes_of_ordinary (hsource : m.origin = .source) (hm : IsOrdinary .mustache m)
    (m' : Mustache) : ¬ Becomes (fun m : Mustache => m.enter scope .standard) m m' := by
  intro h
  obtain ⟨p, hp, hy | hq⟩ := becomes_iff.1 h
  · obtain ⟨hyield, -, target, loc, hpairs, -⟩ := hy
    have hnil := (hm hsource p hp).2 hyield
    rw [hpairs] at hnil
    cases hnil
  · obtain ⟨-, query, block, hquery, -⟩ := hq
    rw [ofPath?_eq_none.2 (hm hsource p hp).1] at hquery
    cases hquery

theorem enter_ordinary (hsource : m.origin = .source) (hm : IsOrdinary .mustache m) :
    outcome (m.enter scope .standard) = .ok none ↔ IsLegal scope .mustache m := by
  rw [outcome_enter]
  cases hpath : m.path with
  | path p =>
    obtain ⟨hquery, hpairs⟩ := hm hsource p hpath
    by_cases hyield : p.text = Names.yieldKeyword
    · simp only [hyield, if_true, desugarYield_eq_ok, hpath, hpairs hyield, IsLegal, hsource]
      simp [hyield]
    · simp [hyield, ofPath?_eq_none.2 hquery, IsLegal, hsource, hpath]
  | _ => simp [IsLegal, hpath]

theorem settled_ordinary (hm : IsOrdinary .mustache m) :
    settled scope .mustache m = .ok m' ↔ IsLegal scope .mustache m ∧ m' = m := by
  rw [settled_mustache]
  cases hsource : m.origin with
  | synthetic => simp [settleSource_synthetic, IsLegal, hsource]
  | source =>
    rw [settleSource_eq_ok (not_becomes_of_ordinary hsource hm), enter_ordinary hsource hm]

end Mustache

theorem SubExpr.settled_ordinary {c c' : SubExpr} {scope : Scope}
    (hc : IsOrdinary .subExpression c) :
    settled scope .subExpression c = .ok c' ↔ IsLegal scope .subExpression c ∧ c' = c := by
  rw [settled_subExpression]
  cases hsource : c.origin with
  | synthetic => simp [settleSource_synthetic, IsLegal]
  | source =>
    have hquery : BlockQuery.ofPath? c.path.text = none := ofPath?_eq_none.2 (hc hsource)
    rw [settleSource_of_settled (SubExpr.settled_iff.2 hquery)]
    simp [IsLegal, eq_comm]

/-- **An ordinary node is visited as it stands** if it is legal, and not at all otherwise. -/
theorem settled_ordinary {scope : Scope} {k : Kind} {x y : k.Node} (hx : Everywhere IsOrdinary k x)
    (hroot : k = .template → scope = .root) :
    settled scope k x = .ok y ↔ IsLegal scope k x ∧ y = x := by
  have hself : IsOrdinary k x := (everywhere_iff.1 hx).1
  match k, x, y, hx, hroot, hself with
  | .template, t, t', _, hroot, _ =>
    obtain rfl := hroot rfl
    rw [settled_template]
    cases hparams : t.blockParams <;>
      simp [Template.checkRoot, maintain, Scope.isRoot, Scope.root, hparams, IsLegal, refusing,
        eq_comm]
  | .element, e, e', hx, _, _ => exact Element.settled_ordinary hx
  | .mustache, m, m', _, _, hself => exact Mustache.settled_ordinary hself
  | .subExpression, c, c', _, _, hself => exact SubExpr.settled_ordinary hself
  | .block, _, _, _, _, _ | .statements, _, _, _, _, _ | .statement, _, _, _, _, _
  | .blockStatement, _, _, _, _, _ | .attribute, _, _, _, _, _ | .modifier, _, _, _, _, _
  | .expression, _, _, _, _, _ | .hash, _, _, _, _, _ => simp [settled, IsLegal, eq_comm]

/-! ### Ordinary trees -/

/-- **The plain form of an ordinary node is the node itself**, and there is one exactly if all
nodes are legal. -/
theorem plainForm_ordinary {scope : Scope} {k : Kind} {x z : k.Node}
    (hx : Everywhere IsOrdinary k x) (hroot : k = .template → scope = .root) :
    plainForm scope k x = .ok z ↔ EverywhereVisited IsLegal scope k x ∧ z = x := by
  induction hx generalizing scope with
  | @intro k x hself hparts ih =>
    have hsettled {y : k.Node} := settled_ordinary (y := y) (.intro hself hparts) hroot
    -- templates are not parts of anything, so the parts may be in any scope
    have hvisit {p : Node} {q : p.1.Node} (hp : p ∈ parts k x) :
        plainForm (innerScope scope k x) p.1 p.2 = .ok q ↔
          EverywhereVisited IsLegal (innerScope scope k x) p.1 p.2 ∧ q = p.2 :=
      ih p hp fun hk => absurd hk (ne_template_of_mem_parts hp)
    have hwalk (h : ∀ p ∈ parts k x, EverywhereVisited IsLegal (innerScope scope k x) p.1 p.2) :
        walk (plainForm (innerScope scope k x)) k x = .ok x :=
      walk_eq_self k x fun p hp => (hvisit hp).2 ⟨h p hp, rfl⟩
    rw [plainForm_eq, bind_eq_ok, everywhereVisited_iff]
    constructor
    · rintro ⟨y, hs, hw⟩
      obtain ⟨hlegal, rfl⟩ := hsettled.1 hs
      have hall : ∀ p ∈ parts k y, EverywhereVisited IsLegal (innerScope scope k y) p.1 p.2 := by
        intro p hp
        obtain ⟨q, -, hq⟩ := exists_of_mem_parts hw hp
        exact ((hvisit hp).1 hq).1
      rw [hwalk hall] at hw
      cases hw
      exact ⟨⟨hlegal, hall⟩, rfl⟩
    · rintro ⟨⟨hlegal, hall⟩, rfl⟩
      exact ⟨z, hsettled.2 ⟨hlegal, rfl⟩, hwalk hall⟩

theorem Element.isShallow_of_ordinary {e : Element} (he : Everywhere IsOrdinary .element e) :
    e.IsShallow := by
  rw [IsShallow, ← Bool.not_eq_true]
  intro hdeep
  obtain ⟨d, hd, hname, -⟩ := holdsDefaults_succ.1 hdeep
  have hnone : d.blockName? = none := (everywhere_iff.1 (he.children.of_mem hd)).1
  rw [hnone] at hname
  cases hname

/-- **Ordinary templates are left alone.** A template that has nothing to desugar comes back as it
is, in every field, if each of its nodes is legal in the scope that it is visited in. If one is not,
the template is refused for a misuse. -/
theorem desugar_ordinary {t : Template} (ht : Everywhere IsOrdinary .template t) :
    ((∃ t', t.desugar = .ok t') ↔ EverywhereVisited IsLegal .root .template t) ∧
    (EverywhereVisited IsLegal .root .template t → t.desugar = .ok t) ∧
    (¬ EverywhereVisited IsLegal .root .template t →
      ∃ halt, t.desugar = .error halt ∧ halt.IsMisuse) := by
  have hplain {t' : Template} : t.desugar = .ok t' ↔
      EverywhereVisited IsLegal .root .template t ∧ t' = t :=
    plainForm_ordinary ht fun _ => rfl
  refine ⟨⟨?_, ?_⟩, fun h => hplain.2 ⟨h, rfl⟩, ?_⟩
  · rintro ⟨t', h⟩
    exact (hplain.1 h).1
  · intro h
    exact ⟨t, hplain.2 ⟨h, rfl⟩⟩
  · intro hnot
    have hshallow : Everywhere (OfElements Element.IsShallow) .template t :=
      ht.imp_self fun k x hx => ofElements_of (Q := Everywhere IsOrdinary)
        (fun _ => Element.isShallow_of_ordinary) hx
    cases h : t.desugar with
    | ok t' => exact absurd (hplain.1 h).1 hnot
    | error halt => exact ⟨halt, rfl, isMisuse_of_desugar hshallow h⟩

/-- `{{#let}}` binds a name, and in it `<card as |row|>` yields its own param and a synthetic query.
The element is an invocation only if `{{#let}}` binds its tag. -/
theorem desugar_ordinary_let :
    let query : SubExpr := { path := .ofText "has-block" {}, hash := {}, origin := .synthetic }
    let yield : Mustache := {
      path := .path (.ofText "yield" {})
      params := [.path (.ofText "row" {}), .sub query] }
    let card : Element := {
      tag := "card"
      blockParams := ["row"]
      children := [.mustache yield, .element { tag := "row.cell", blockParams := ["cell"] }] }
    let t (name : String) : Template := { body := [.block {
      path := .path (.ofText "let" {})
      program := { body := [.element card], blockParams := [name] } }] }
    (t "card").desugar = .ok (t "card") ∧
      ∃ halt, (t "box").desugar = .error halt ∧ halt.IsMisuse := by
  intro query yield card t
  have hcard : Everywhere IsOrdinary .template (t "card") := by decide +kernel
  have hbox : Everywhere IsOrdinary .template (t "box") := by decide +kernel
  constructor
  · apply (desugar_ordinary hcard).2.1
    rw [← (desugar_ordinary hcard).1]
    exact ⟨t "card", by decide +kernel⟩
  · apply (desugar_ordinary hbox).2.2
    intro h
    have hok : (t "box").desugar = .ok (t "box") := (desugar_ordinary hbox).2.1 h
    exact absurd hok (by decide +kernel)

end TemplateBlocks
