import TemplateBlocks.Proofs.Traversal.Everywhere
import TemplateBlocks.Scope

/-!
# Properties in lexical scope

`EverywhereIn P scope` is `Everywhere` for properties that depend on the block params around a node.
The scope is that of the template as it stands, before anything is moved: a block and an element
bind their params in all of their parts (`lexicalScope`).
-/

namespace TemplateBlocks

/-- The scope of the parts of a node, as the template has it. -/
def lexicalScope (scope : Scope) : (k : Kind) → k.Node → Scope
  | .block, b => scope.push (.ofBlock b)
  | .element, e => scope.push (.ofComponent e)
  | _, _ => scope

/-- `P` holds of a node and of every node below it, each in its lexical scope. -/
inductive EverywhereIn (P : Scope → (k : Kind) → k.Node → Prop) :
    Scope → (k : Kind) → k.Node → Prop
  | intro {scope : Scope} {k : Kind} {x : k.Node} : P scope k x →
      (∀ p ∈ parts k x, EverywhereIn P (lexicalScope scope k x) p.1 p.2) → EverywhereIn P scope k x

variable {P : Scope → (k : Kind) → k.Node → Prop} {scope : Scope} {k : Kind} {x : k.Node}

theorem everywhereIn_iff : EverywhereIn P scope k x ↔
    P scope k x ∧ ∀ p ∈ parts k x, EverywhereIn P (lexicalScope scope k x) p.1 p.2 :=
  ⟨fun ⟨h, hp⟩ => ⟨h, hp⟩, fun ⟨h, hp⟩ => .intro h hp⟩

/-- What follows from a property in scope and another one of all nodes. -/
theorem EverywhereIn.imp {Q : (k : Kind) → k.Node → Prop}
    {R : Scope → (k : Kind) → k.Node → Prop} (hP : EverywhereIn P scope k x)
    (hQ : Everywhere Q k x) (h : ∀ scope k x, P scope k x → Q k x → R scope k x) :
    EverywhereIn R scope k x := by
  induction hP with
  | intro hx _ ih =>
    obtain ⟨hq, hparts⟩ := everywhere_iff.1 hQ
    exact .intro (h _ _ _ hx hq) fun p hp => ih p hp (hparts p hp)

/-- What holds of all inline nodes holds everywhere in them. -/
theorem everywhereIn_inline (hP : ∀ scope k x, k.isInline → P scope k x) (hk : k.isInline)
    (scope : Scope) (x : k.Node) : EverywhereIn P scope k x := by
  have hinline : Everywhere (fun k _ => k.isInline) k x := everywhere_inline (fun _ _ h => h) hk x
  induction hinline generalizing scope with
  | intro hx _ ih =>
    refine .intro (hP _ _ _ hx) ?_
    intro p hp
    exact ih p hp (isInline_of_mem_parts hx hp) _

/-! ### Elements and their bodies -/

theorem EverywhereIn.children {e : Element} (h : EverywhereIn P scope .element e) :
    EverywhereIn P (lexicalScope scope .element e) .statements e.children :=
  (everywhereIn_iff.1 h).2 ⟨.statements, e.children⟩ (by simp [parts])

/-- What holds everywhere in a body holds everywhere in its elements. -/
theorem EverywhereIn.of_mem {ss : List Statement} {c : Element}
    (h : EverywhereIn P scope .statements ss) (hc : .element c ∈ ss) :
    EverywhereIn P scope .element c := by
  have hs := (everywhereIn_iff.1 h).2 ⟨.statement, .element c⟩ (List.mem_map_of_mem hc)
  exact (everywhereIn_iff.1 hs).2 ⟨.element, c⟩ (by simp [parts, Statement.parts])

end TemplateBlocks
