import TemplateBlocks.Proofs.Desugar.PlainForm
import TemplateBlocks.Proofs.Traversal.Everywhere

/-!
# What replacements inherit

Desugaring moves the elements of a template around but makes no new ones: the elements of a
replaced node stand in the replacement, and only the invocation itself is another one. So a
property of elements that passes to unwrapped and fanned-out invocations (`Inherited`) holds
everywhere in what a node is settled to, and everywhere in its plain form if it does not depend on
what stands inside the element. Self-closing elements stay where they are; so a property of them
that holds everywhere in a plain form held everywhere before (`reflected_of_plainForm`).
-/

namespace TemplateBlocks

open Desugar

/-- The property passes from an invocation to what takes its place. -/
structure Inherited (P : Element → Prop) : Prop where
  unwrapped (e only : Element) : P e → P only → P (e.unwrapped only)
  fanned (e first : Element) (rest : List Element) : P e → P (e.fanned first rest)

variable {P : Element → Prop} {scope : Scope}

/-! ### Dispatching -/

theorem Element.everywhere_branchBody {block : Element} :
    Everywhere (OfElements P) .block block.branchBody ↔
      Everywhere (OfElements P) .statements block.children := by
  have hown : Everywhere (OfElements P) .block block.ownBody ↔
      Everywhere (OfElements P) .statements block.children := everywhere_elements_block
  rw [← hown]
  unfold branchBody
  split
  · rfl
  · rw [everywhere_elements_block, everywhere_elements_singleton,
      everywhere_elements_blockStatement]
    simp [letSlots]

/-- The elements of a chain of branches are those of the blocks. -/
theorem everywhere_dispatchChain {first : Element} {rest : List Element} :
    Everywhere (OfElements P) .blockStatement (dispatchChain first rest) ↔
      ∀ block ∈ first :: rest, Everywhere (OfElements P) .statements block.children := by
  induction rest generalizing first with
  | nil =>
    have hbody := first.everywhere_branchBody (P := P)
    simpa [everywhere_elements_blockStatement, dispatchChain, Element.branch] using hbody
  | cons next rest ih =>
    rw [everywhere_elements_blockStatement, List.forall_mem_cons, ← ih]
    refine and_congr first.everywhere_branchBody ?_
    simp [dispatchChain, everywhere_elements_block, everywhere_elements_singleton]

/-! ### Replacements -/

namespace Inherited

theorem of_becomes (hP : Inherited P) {e e' : Element}
    (h : Becomes (fun e : Element => e.enter scope .standard) e e')
    (he : Everywhere (OfElements P) .element e) : Everywhere (OfElements P) .element e' := by
  obtain ⟨hself, hchildren⟩ := everywhere_elements.1 he
  obtain ⟨-, -, -, blocks, hblocks, -, hfan⟩ := Element.becomes_iff.1 h
  have hdeclared : ∀ block ∈ blocks, P block ∧
      Everywhere (OfElements P) .statements block.children := by
    intro block hb
    have hmem := (Element.sublist_of_namedBlocks hblocks).subset (List.mem_map_of_mem hb)
    exact everywhere_elements.1 (hchildren.of_mem hmem)
  rcases Element.eq_of_fanOut hfan with ⟨only, rfl, -, rfl⟩ | ⟨-, first, rest, rfl, rfl⟩
  · obtain ⟨honly, hbody⟩ := hdeclared only (by simp)
    exact everywhere_elements.2 ⟨hP.unwrapped e only hself honly, hbody⟩
  · refine everywhere_elements.2 ⟨hP.fanned e first rest hself, everywhere_elements_singleton.2 ?_⟩
    exact everywhere_dispatchChain.2 fun block hb => (hdeclared block hb).2

/-- **What replacements inherit, settled nodes inherit.** -/
theorem settled (hP : Inherited P) {k : Kind} {x y : k.Node}
    (h : Desugar.settled scope k x = .ok y) (hx : Everywhere (OfElements P) k x) :
    Everywhere (OfElements P) k y := by
  match k, x, y, h, hx with
  | .template, t, t', h, hx =>
    obtain ⟨-, -, h⟩ := bind_eq_ok.1 h
    cases h
    exact hx
  | .element, e, e', h, hx =>
    exact settleSource_induction hx (fun a b ha hab => hP.of_becomes hab ha) h
  | .mustache, m, m', _, _ => exact everywhere_elements_inline (k := .mustache) rfl m'
  | .subExpression, c, c', _, _ => exact everywhere_elements_inline (k := .subExpression) rfl c'
  | .block, _, _, h, hx | .statements, _, _, h, hx | .statement, _, _, h, hx
  | .blockStatement, _, _, h, hx | .attribute, _, _, h, hx | .modifier, _, _, h, hx
  | .expression, _, _, h, hx | .hash, _, _, h, hx =>
    cases h
    exact hx

/-- **What replacements inherit, plain forms inherit**, if it is kept when the parts of an element
are replaced. -/
theorem plainForm (hP : Inherited P)
    (hwalked : ∀ (e : Element) attributes modifiers children, P e →
      P { e with attributes, modifiers, children })
    {k : Kind} {x z : k.Node} (h : Desugar.plainForm scope k x = .ok z)
    (hx : Everywhere (OfElements P) k x) : Everywhere (OfElements P) k z := by
  refine everywhere_plainForm hP.settled ?_ h hx
  intro scope k y z hw hy
  refine ofElements_of
    (Q := fun k z => ∃ s y, walk (Desugar.plainForm s) k y = .ok z ∧ OfElements P k y)
    ?_ ⟨_, y, hw, hy⟩
  rintro e' ⟨s, e, hw, he⟩
  obtain ⟨as, ms, cs, -, -, -, rfl⟩ := walk_element_eq_ok.1 hw
  exact hwalked e as ms cs he

end Inherited

/-! ### What plain forms say about the template -/

/-- Texts and comments have no parts. -/
theorem Statement.parts_of_isIgnorable {s : Statement} (h : s.isIgnorable) : s.parts = [] := by
  cases s <;> simp [isIgnorable, Statement.parts] at h ⊢

section Reflected

-- a property of self-closing elements, which are left where they are
variable (hopen : ∀ e : Element, e.selfClosing = false → P e)

include hopen

theorem reflected_of_becomes {e e' : Element}
    (h : Becomes (fun e : Element => e.enter scope .standard) e e')
    (he : Everywhere (OfElements P) .element e') : Everywhere (OfElements P) .element e := by
  obtain ⟨hself, -, -, blocks, hblocks, hne, hfan⟩ := Element.becomes_iff.1 h
  have hbodies : ∀ block ∈ blocks, Everywhere (OfElements P) .statements block.children := by
    have hchildren := he.children
    rcases Element.eq_of_fanOut hfan with ⟨only, rfl, -, rfl⟩ | ⟨-, first, rest, rfl, rfl⟩
    · intro block hblock
      rwa [List.mem_singleton.1 hblock]
    · exact everywhere_dispatchChain.1 (everywhere_elements_singleton.1 hchildren)
  refine everywhere_elements.2 ⟨hopen e hself, everywhere_elements_statements.2 ?_⟩
  intro s hs
  rw [everywhere_elements_statement]
  rcases Element.mem_of_namedBlocks hblocks hne hs with hi | ⟨block, hb, rfl⟩
  · simp [Statement.parts_of_isIgnorable hi]
  · obtain ⟨hdeclared, -⟩ := Element.areDeclared_of_namedBlocks hblocks
    obtain ⟨_, -, -, hblock, -⟩ := Element.isDeclaration_eq_true.1 (hdeclared block hb)
    simpa [Statement.parts] using everywhere_elements.2 ⟨hopen block hblock, hbodies block hb⟩

theorem reflected_of_settled {k : Kind} {x y : k.Node} (h : settled scope k x = .ok y)
    (hy : Everywhere (OfElements P) k y) : Everywhere (OfElements P) k x := by
  match k, x, y, h, hy with
  | .template, t, t', h, hy =>
    obtain ⟨-, -, h⟩ := bind_eq_ok.1 h
    cases h
    exact hy
  | .element, e, e', h, hy =>
    exact settleSource_head_induction hy (fun a b hab hb => reflected_of_becomes hopen hab hb) h
  | .mustache, m, m', _, _ => exact everywhere_elements_inline (k := .mustache) rfl m
  | .subExpression, c, c', _, _ => exact everywhere_elements_inline (k := .subExpression) rfl c
  | .block, _, _, h, hy | .statements, _, _, h, hy | .statement, _, _, h, hy
  | .blockStatement, _, _, h, hy | .attribute, _, _, h, hy | .modifier, _, _, h, hy
  | .expression, _, _, h, hy | .hash, _, _, h, hy =>
    cases h
    exact hy

/-- **What is true of all elements that are left was true of all elements**, if it is true of those
that are not self-closing anyway. -/
theorem reflected_of_plainForm
    (hwalked : ∀ (e : Element) attributes modifiers children,
      P { e with attributes, modifiers, children } → P e)
    {k : Kind} {x z : k.Node} (h : plainForm scope k x = .ok z)
    (hz : Everywhere (OfElements P) k z) : Everywhere (OfElements P) k x := by
  induction hn : weight k x using Nat.strong_induction_on generalizing scope k x z with
  | _ n ih =>
    rw [plainForm_eq] at h
    obtain ⟨y, hs, hw⟩ := bind_eq_ok.1 h
    obtain ⟨hself, hparts⟩ := everywhere_iff.1 hz
    refine reflected_of_settled hopen hs (.intro ?_ ?_)
    · refine ofElements_of
        (Q := fun k y => ∃ s z, walk (plainForm s) k y = .ok z ∧ OfElements P k z)
        ?_ ⟨_, z, hw, hself⟩
      rintro e ⟨s, e', hw, he⟩
      obtain ⟨as, ms, cs, -, -, -, rfl⟩ := walk_element_eq_ok.1 hw
      exact hwalked e as ms cs he
    · intro p hp
      obtain ⟨q, hq, hplain⟩ := exists_of_mem_parts hw hp
      refine ih _ ?_ hplain (hparts _ hq) rfl
      have := weight_lt_of_settled hs hp
      omega

end Reflected

end TemplateBlocks
