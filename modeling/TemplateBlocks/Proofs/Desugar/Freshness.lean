import TemplateBlocks.Proofs.Desugar.Carried
import TemplateBlocks.Proofs.Desugar.PlainForm

/-!
# Fresh names

Desugaring asks its scope about two things only: the first segment of a tag, and the first segment
of the path of a yield or a query. So a node that avoids some names there has the same plain form
in two scopes that agree on all other names (`plainForm_congr`). What the node is replaced by
avoids the names too.
-/

namespace TemplateBlocks

open Desugar

/-! ### Scopes that agree -/

namespace Scope

variable {s t : Scope} {names : List String}

/-- The scopes bind the same names, but perhaps for the given ones. -/
def AgreeBut (names : List String) (s t : Scope) : Prop :=
  ∀ n ∉ names, s.isLocal n false = t.isLocal n false

theorem isLocal_push (s : Scope) (f : Frame) (n : String) :
    (s.push f).isLocal n false = (f.blockParams.contains n || s.isLocal n false) := by
  simp [isLocal, push]

theorem AgreeBut.refl (names : List String) (s : Scope) : AgreeBut names s s := fun _ _ => rfl

theorem AgreeBut.push (h : AgreeBut names s t) (f : Frame) :
    AgreeBut names (s.push f) (t.push f) := by
  intro n hn
  rw [isLocal_push, isLocal_push, h n hn]

/-- A frame of names that do not count makes no difference. -/
theorem AgreeBut.push_left (h : AgreeBut names s t) {f : Frame}
    (hf : ∀ n ∈ f.blockParams, n ∈ names) :
    AgreeBut names (s.push f) t := by
  intro n hn
  have hnot : f.blockParams.contains n = false := by
    simpa using fun hmem => hn (hf n hmem)
  rw [isLocal_push, hnot, Bool.false_or, h n hn]

end Scope

/-! ### Nodes that avoid names -/

/-- The paths that desugaring looks up in scope: those of yields and of queries. -/
def Path.IsLookedUp (p : Path) : Prop :=
  p.text = Names.yieldKeyword ∨ BlockQuery.ofPath? p.text ≠ none

/-- The path is not looked up, or does not start with one of the names. -/
def Path.Avoids (names : List String) (p : Path) : Prop :=
  p.IsLookedUp → ∀ n ∈ names, p.head? ≠ some n

/-- What the node asks of its scope is about none of the names: it is no element, yield or query
that starts with one of them. A template asks that there is no scope at all, which is about every
name. -/
def Avoids (names : List String) : (k : Kind) → k.Node → Prop
  | .template, _ => False
  | .element, e => e.head ∉ names
  | .mustache, m => ∀ p, m.path = .path p → p.Avoids names
  | .subExpression, c => c.path.Avoids names
  | _, _ => True

variable {names : List String} {s t scope : Scope}

theorem Path.avoids_of_not_isLookedUp {p : Path} (h : ¬ p.IsLookedUp) : p.Avoids names :=
  fun hp => absurd hp h

theorem Path.isSimple_congr {p : Path}
    (h : ∀ n, p.head? = some n → s.isLocal n false = t.isLocal n false) :
    p.isSimple s = p.isSimple t := by
  unfold Path.isSimple
  cases hhead : p.head? with
  | none => rfl
  | some head => simp only [h head hhead]

theorem Path.Avoids.isSimple_congr {p : Path} (hp : p.Avoids names) (h : s.AgreeBut names t)
    (hlook : p.IsLookedUp) : p.isSimple s = p.isSimple t :=
  Path.isSimple_congr fun n hn => h n fun hmem => hp hlook n hmem hn

theorem Element.isComponent_congr {e : Element} (h : s.AgreeBut names t) (he : e.head ∉ names) :
    e.isComponent s false = e.isComponent t false := by
  unfold Element.isComponent
  rw [h _ he]

theorem Element.enter_congr {e : Element} (h : s.AgreeBut names t) (he : e.head ∉ names) :
    e.enter s .standard = e.enter t .standard := by
  unfold Element.enter
  rw [Element.isComponent_congr h he]

theorem Mustache.enter_congr {m : Mustache}
    (h : ∀ p, m.path = .path p → p.IsLookedUp → p.isSimple s = p.isSimple t) :
    m.enter s .standard = m.enter t .standard := by
  unfold Mustache.enter
  cases hpath : m.path with
  | path p =>
    by_cases hy : p.text = Names.yieldKeyword
    · simp only [hy, if_true, Mustache.desugarYield, hpath, h p hpath (.inl hy)]
    · simp only [hy, if_false]
      cases hq : BlockQuery.ofPath? p.text with
      | none => rfl
      | some query =>
        have hp : p.IsLookedUp := .inr (by simp [hq])
        simp only [Mustache.desugarQuery, QueryCall.resolve, hpath, h p hpath hp]
  | _ => rfl

theorem SubExpr.enter_congr {c : SubExpr}
    (h : BlockQuery.ofPath? c.path.text ≠ none → c.path.isSimple s = c.path.isSimple t) :
    c.enter s .standard = c.enter t .standard := by
  unfold SubExpr.enter
  cases hq : BlockQuery.ofPath? c.path.text with
  | none => rfl
  | some query =>
    simp only [SubExpr.desugarQuery, QueryCall.resolve, h (by simp [hq])]

/-! ### Replacements avoid what the replaced avoids -/

/-- A helper's path is not looked up. -/
theorem not_isLookedUp_helper (query : BlockQuery) (loc : Span) :
    ¬ (Path.ofText query.helper loc).IsLookedUp := by
  rintro (h | h)
  · rw [Path.ofText_text] at h
    exact helper_ne_yield query h
  · rw [Path.ofText_text] at h
    exact h (ofPath?_helper query)

/-- **What takes the place of a node avoids what the node avoids.** -/
theorem carried_avoids (names : List String) : Carried (Avoids names) where
  neutral {k} x hk := by
    cases k <;> trivial
  keyword _ _ := trivial
  element {e e'} htag he := by rwa [Avoids, Element.head, htag]
  metadata m := by
    rintro p ⟨⟩
    apply Path.avoids_of_not_isLookedUp
    rw [Path.IsLookedUp, Path.ofText_text]
    decide
  test block := by
    apply Path.avoids_of_not_isLookedUp
    rw [Path.IsLookedUp, Element.markerTest, Path.ofText_text]
    decide
  mark {target} _ _ := by
    apply Path.avoids_of_not_isLookedUp
    rw [Path.IsLookedUp, markerCall, Path.ofText_text]
    decide
  yields _ _ _ hm := hm
  mustache {m p query block} hp _ _ hm := by
    refine ⟨?_, fun _ => hm p hp⟩
    rintro q ⟨⟩
    exact Path.avoids_of_not_isLookedUp (not_isLookedUp_helper query _)
  subExpression {c query block} _ _ hc :=
    ⟨Path.avoids_of_not_isLookedUp (not_isLookedUp_helper query _), fun _ => hc⟩

theorem avoids_path (p : Path) : Everywhere (Avoids names) .expression (.path p) :=
  (carried_avoids names).path p

theorem avoids_string (l : Literal String) : Everywhere (Avoids names) .expression (.string l) :=
  (carried_avoids names).string l

theorem avoids_hash {h : Hash} (hp : ∀ p ∈ h.pairs, Everywhere (Avoids names) .expression p.value) :
    Everywhere (Avoids names) .hash h :=
  (carried_avoids names).hash.2 hp

theorem avoids_mustache {m : Mustache} : Everywhere (Avoids names) .mustache m ↔
    (∀ p, m.path = .path p → p.Avoids names) ∧ Everywhere (Avoids names) .expression m.path ∧
      (∀ e ∈ m.params, Everywhere (Avoids names) .expression e) ∧
      Everywhere (Avoids names) .hash m.hash :=
  everywhere_mustache

theorem avoids_element {e : Element} : Everywhere (Avoids names) .element e ↔
    e.head ∉ names ∧ (∀ a ∈ e.attributes, Everywhere (Avoids names) .attribute a) ∧
      (∀ m ∈ e.modifiers, Everywhere (Avoids names) .modifier m) ∧
      Everywhere (Avoids names) .statements e.children :=
  everywhere_element

theorem avoids_statements {ss : List Statement} : Everywhere (Avoids names) .statements ss ↔
    ∀ x ∈ ss, Everywhere (Avoids names) .statement x :=
  (carried_avoids names).statements

theorem avoids_statement {x : Statement} : Everywhere (Avoids names) .statement x ↔
    ∀ p ∈ x.parts, Everywhere (Avoids names) p.1 p.2 :=
  (carried_avoids names).statement

/-- The blocks that an invocation declares are among its children. -/
theorem Element.avoids_namedBlocks {e : Element} {blocks : List Element}
    (hblocks : e.namedBlocks = .ok blocks) (h : Everywhere (Avoids names) .statements e.children) :
    ∀ block ∈ blocks, Everywhere (Avoids names) .statements block.children :=
  (carried_avoids names).namedBlocks hblocks h

/-! ### Agreeing scopes -/

section Congruence

/-- Entering alike until a node stays ends alike. -/
theorem settle_congr {α : Type} [DecidableEq α] {kind : String}
    {enter enter' : α → BuildM Unit (Option α)} {P : α → Prop}
    (henter : ∀ a, P a → enter a = enter' a) (hstep : ∀ a b, P a → Becomes enter a b → P b)
    (rounds : Nat) {x : α} (hx : P x) :
    outcome (settle kind enter rounds x) = outcome (settle kind enter' rounds x) := by
  induction rounds generalizing x with
  | zero => rfl
  | succ rounds ih =>
    rw [settle, settle, ← henter x hx, outcome_bind, outcome_bind]
    cases hnext : outcome (enter x) with
    | error d => rfl
    | ok next =>
      cases next with
      | none => rfl
      | some y =>
        simp only [ok_bind]
        split
        · rfl
        · exact ih (hstep x y hx hnext)

theorem settleSource_congr {α : Type} [DecidableEq α] {kind : String}
    {enter enter' : α → BuildM Unit (Option α)} {P : α → Prop}
    (henter : ∀ a, P a → enter a = enter' a) (hstep : ∀ a b, P a → Becomes enter a b → P b)
    {x : α} (hx : P x) (origin : Origin) :
    settleSource kind enter x origin = settleSource kind enter' x origin := by
  cases origin with
  | synthetic => rfl
  | source => simp only [settleSource, settle_congr henter hstep roundLimit hx]

theorem settled_congr {k : Kind} {x : k.Node} (h : s.AgreeBut names t)
    (hx : Everywhere (Avoids names) k x) : settled s k x = settled t k x := by
  have hself {k : Kind} {x : k.Node} (hx : Everywhere (Avoids names) k x) : Avoids names k x :=
    (everywhere_iff.1 hx).1
  match k, x, hx with
  | .template, _, hx => exact (hself hx).elim
  | .element, e, hx =>
    exact settleSource_congr (fun a ha => Element.enter_congr h (avoids_element.1 ha).1)
      (fun a b ha hab => (carried_avoids names).element_of_becomes hab ha) hx _
  | .mustache, m, hx =>
    exact settleSource_congr
      (fun a ha => Mustache.enter_congr fun p hp => (hself ha p hp).isSimple_congr h)
      (fun a b ha hab => (carried_avoids names).mustache_of_becomes hab ha) hx _
  | .subExpression, c, hx =>
    exact settleSource_congr
      (fun a ha => SubExpr.enter_congr fun hq =>
        Path.Avoids.isSimple_congr (hself (k := .subExpression) ha) h (.inr hq))
      (fun a b ha hab => (carried_avoids names).subExpression_of_becomes hab ha) hx _
  | .block, _, _ | .statements, _, _ | .statement, _, _ | .blockStatement, _, _
  | .attribute, _, _ | .modifier, _, _ | .expression, _, _ | .hash, _, _ => rfl

theorem innerScope_congr {k : Kind} {y : k.Node} (h : s.AgreeBut names t) (hy : Avoids names k y) :
    (innerScope s k y).AgreeBut names (innerScope t k y) := by
  match k, y, hy with
  | .block, b, _ =>
    cases ho : b.origin with
    | synthetic => simpa [innerScope, ho] using h
    | source => simpa [innerScope, ho] using h.push _
  | .element, e, hy =>
    cases ho : e.origin with
    | synthetic => simpa [innerScope, ho] using h
    | source =>
      simp only [innerScope, ho, Element.isComponent_congr h hy]
      split
      · exact h
      · exact h.push _
  | .template, _, hy => exact hy.elim
  | .mustache, _, _ | .subExpression, _, _ | .statements, _, _
  | .statement, _, _ | .blockStatement, _, _ | .attribute, _, _ | .modifier, _, _
  | .expression, _, _ | .hash, _, _ => exact h

/-- **A node that avoids the names on which two scopes differ has the same plain form in both.** -/
theorem plainForm_congr {k : Kind} {x : k.Node} (h : s.AgreeBut names t)
    (hx : Everywhere (Avoids names) k x) : plainForm s k x = plainForm t k x := by
  -- settling may put another node in the place of this one, of no greater weight
  induction hn : weight k x using Nat.strong_induction_on generalizing s t k x with
  | _ n ih =>
    rw [plainForm_eq, plainForm_eq, settled_congr h hx]
    cases hs : settled t k x with
    | error e => rfl
    | ok y =>
      obtain ⟨hy, hparts⟩ := everywhere_iff.1 ((carried_avoids names).settled hs hx)
      rw [ok_bind, ok_bind]
      apply walk_congr
      intro p hp
      refine ih _ ?_ (innerScope_congr h hy) (hparts p hp) rfl
      have := weight_lt_of_settled hs hp
      omega

end Congruence

end TemplateBlocks
