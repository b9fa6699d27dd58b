import TemplateBlocks.Proofs.Desugar.Freshness
import TemplateBlocks.Proofs.Desugar.LoneDefault

/-!
# Places in a template

`Replaces scope k x x'` says that `x'` is `x` with some of its invocations in their implicit forms,
wherever they stand: each of them has a lone default block in the scope of its place. That scope
follows the traversal (`Element.bodyScope`): blocks and elements of the source bind their params,
and what stands in a fanned-out invocation is in the scope of its slots. An invocation is one in
every scope that binds more, so replacements may be moved into such scopes (`Replaces.mono`).
-/

namespace TemplateBlocks

open Desugar

/-! ### Scopes that bind more -/

namespace Scope

variable {s t : Scope} {f : Frame}

/-- Every name that `s` binds is bound in `t`. -/
def IsWithin (s t : Scope) : Prop := ∀ n, s.isLocal n false = true → t.isLocal n false = true

theorem IsWithin.refl (s : Scope) : s.IsWithin s := fun _ h => h

theorem isLocal_push_iff {n : String} :
    (s.push f).isLocal n false = true ↔ n ∈ f.blockParams ∨ s.isLocal n false = true := by
  simp [isLocal_push]

theorem IsWithin.push_left (h : s.IsWithin t)
    (hf : ∀ n ∈ f.blockParams, t.isLocal n false = true) : (s.push f).IsWithin t := by
  intro n hn
  rcases isLocal_push_iff.1 hn with hn | hn
  · exact hf n hn
  · exact h n hn

theorem IsWithin.push_right (h : s.IsWithin t) (f : Frame) : s.IsWithin (t.push f) :=
  fun n hn => isLocal_push_iff.2 (.inr (h n hn))

theorem IsWithin.push {g : Frame} (h : s.IsWithin t)
    (hfg : ∀ n ∈ f.blockParams, n ∈ g.blockParams) : (s.push f).IsWithin (t.push g) :=
  (h.push_right g).push_left fun n hn => isLocal_push_iff.2 (.inl (hfg n hn))

theorem IsWithin.isComponent {e : Element} (h : s.IsWithin t)
    (he : e.isComponent s false = true) : e.isComponent t false = true := by
  simp only [Element.isComponent, Bool.or_eq_true] at he ⊢
  exact he.imp_right (h e.head)

end Scope

/-! ### Places -/

namespace Element

variable {s t : Scope} {e only : Element}

/-- The params of what an element is settled to. -/
def settledParams (scope : Scope) (e : Element) : List String :=
  match settled scope .element e with
  | .ok y => y.blockParams
  | .error _ => []

/-- The scope of what stands in an element: it binds the params of the element and, if the element
is fanned out, its slots. -/
def bodyScope (scope : Scope) (e : Element) : Scope :=
  match e.origin with
  | .synthetic => scope
  | .source =>
    scope.push ⟨.component e.tag, e.blockParams ++ e.settledParams scope, e.loc⟩

theorem HasLoneDefault.mono (h : e.HasLoneDefault s only) (hst : s.IsWithin t) :
    e.HasLoneDefault t only :=
  { h with invokes := { h.invokes with component := hst.isComponent h.invokes.component } }

/-- Settling depends on the scope in so far as the element is an invocation in it or not. -/
theorem settled_eq_of_isComponent (hcomp : e.isComponent s false = true) (hst : s.IsWithin t) :
    settled s .element e = settled t .element e := by
  have henter : ∀ a : Element, a.tag = e.tag → a.enter s .standard = a.enter t .standard := by
    intro a ha
    have hs : a.isComponent s false = true := by rwa [isComponent, head, ha]
    unfold enter
    rw [hs, hst.isComponent hs]
  exact settleSource_congr henter (fun a b ha hab => (tag_of_becomes hab).trans ha) rfl _

theorem settledParams_mono (hst : s.IsWithin t) (hsource : e.origin = .source) {n : String}
    (hn : n ∈ e.settledParams s) : n ∈ e.blockParams ++ e.settledParams t := by
  unfold settledParams at hn
  cases hs : settled s .element e with
  | error d => simp [hs] at hn
  | ok y =>
    simp only [hs] at hn
    cases hcomp : e.isComponent s false with
    | true =>
      have ht : settled t .element e = .ok y := by rw [← settled_eq_of_isComponent hcomp hst, hs]
      exact List.mem_append_right _ (by simpa [settledParams, ht] using hn)
    | false =>
      -- what is no invocation stays
      have hstays : ∀ z, ¬ Becomes (fun e : Element => e.enter s .standard) e z := by
        intro z hz
        obtain ⟨-, -, hc, -⟩ := becomes_iff.1 hz
        rw [hcomp] at hc
        cases hc
      rw [settled_element, hsource] at hs
      obtain ⟨-, rfl⟩ := (settleSource_eq_ok hstays).1 hs
      exact List.mem_append_left _ hn

theorem bodyScope_mono (hst : s.IsWithin t) : (e.bodyScope s).IsWithin (e.bodyScope t) := by
  cases ho : e.origin with
  | synthetic => simpa only [bodyScope, ho] using hst
  | source =>
    simp only [bodyScope, ho]
    apply hst.push
    intro n hn
    rcases List.mem_append.1 hn with hn | hn
    · exact List.mem_append_left _ hn
    · exact settledParams_mono hst ho hn

end Element

/-- `x'` is `x` with some invocations in their implicit forms. -/
inductive Replaces : Scope → (k : Kind) → k.Node → k.Node → Prop
  | refl (scope : Scope) (k : Kind) (x : k.Node) : Replaces scope k x x
  | implicit {scope : Scope} {e only : Element} :
      e.HasLoneDefault scope only → Replaces scope .element e (e.implicit only)
  | template {scope : Scope} {t : Template} {body : List Statement} :
      Replaces scope .statements t.body body → Replaces scope .template t { t with body }
  | block {scope : Scope} {b : Block} {body : List Statement} :
      Replaces (innerScope scope .block b) .statements b.body body →
      Replaces scope .block b { b with body }
  | cons {scope : Scope} {s s' : Statement} {ss ss' : List Statement} :
      Replaces scope .statement s s' → Replaces scope .statements ss ss' →
      Replaces scope .statements (s :: ss) (s' :: ss')
  | inElement {scope : Scope} {e e' : Element} :
      Replaces scope .element e e' → Replaces scope .statement (.element e) (.element e')
  | inBlock {scope : Scope} {b b' : BlockStatement} :
      Replaces scope .blockStatement b b' → Replaces scope .statement (.block b) (.block b')
  | program {scope : Scope} {b : BlockStatement} {program : Block} :
      Replaces scope .block b.program program →
      Replaces scope .blockStatement b { b with program }
  | inverse {scope : Scope} {b : BlockStatement} {program i i' : Block} :
      Replaces scope .block b.program program → b.inverse = some i → Replaces scope .block i i' →
      Replaces scope .blockStatement b { b with program, inverse := some i' }
  | children {scope : Scope} {e : Element} {children : List Statement} :
      Replaces (e.bodyScope scope) .statements e.children children →
      Replaces scope .element e { e with children }

namespace Replaces

variable {scope s t : Scope}

theorem innerScope_block_mono {b : Block} (hst : s.IsWithin t) :
    (innerScope s .block b).IsWithin (innerScope t .block b) := by
  cases ho : b.origin with
  | synthetic => simpa only [innerScope, ho] using hst
  | source =>
    simp only [innerScope, ho]
    exact hst.push fun n hn => hn

/-- An invocation is one in every scope that binds more. -/
theorem mono {k : Kind} {x x' : k.Node} (h : Replaces s k x x') (hst : s.IsWithin t) :
    Replaces t k x x' := by
  induction h generalizing t with
  | refl _ k x => exact .refl _ k x
  | implicit h => exact .implicit (h.mono hst)
  | template _ ih => exact .template (ih hst)
  | block _ ih => exact .block (ih (innerScope_block_mono hst))
  | cons _ _ ih ihs => exact .cons (ih hst) (ihs hst)
  | inElement _ ih => exact .inElement (ih hst)
  | inBlock _ ih => exact .inBlock (ih hst)
  | program _ ih => exact .program (ih hst)
  | inverse _ hi _ ihp ih => exact .inverse (ihp hst) hi (ih hst)
  | children _ ih => exact .children (ih (Element.bodyScope_mono hst))

theorem forall₂ {ss ss' : List Statement} (h : Replaces scope .statements ss ss') :
    List.Forall₂ (Replaces scope .statement) ss ss' := by
  induction ss generalizing ss' with
  | nil =>
    cases h
    exact .nil
  | cons s rest ih =>
    cases h with
    | refl => exact .cons (.refl _ .statement s) (ih (.refl _ .statements rest))
    | cons hs hrest => exact .cons hs (ih hrest)

theorem singleton {b b' : BlockStatement} (h : Replaces scope .blockStatement b b') :
    Replaces scope .statements [.block b] [.block b'] :=
  .cons (.inBlock h) (.refl _ .statements [])

end Replaces

end TemplateBlocks
